/-
  Graphs that stay well-formed, with the names of their top levels.

  * `Graph.Edited`: a graph was changed in place or grew, but is still well-formed and has the
    same top levels;
  * `Graph.Kept`: references were renamed after that, and nodes perhaps dropped
    (`Edited.forward`, `kept_collect`), so that only the names of the top levels are the same.
-/
import SchemaTypes.Proofs.Simulation

namespace SchemaTypes

theorem OrderedMap.keys_mapValues {κ ν μ : Type} (f : ν → μ) (m : OrderedMap κ ν) :
    (m.mapValues f).keys = m.keys := by
  simp [keys, mapValues, Function.comp_def]

namespace Graph

variable {g g₁ g₂ : Graph}

/-! ## Edits -/

/-- The graph is well-formed, has the same top levels and no fewer nodes. -/
structure Edited (g g₁ : Graph) : Prop where
  wellFormed : g₁.WellFormed
  topLevels_eq : g₁.topLevels = g.topLevels
  size_le : g.size ≤ g₁.size

namespace Edited

theorem refl (hg : g.WellFormed) : g.Edited g := ⟨hg, rfl, Nat.le_refl _⟩

theorem trans (h : g.Edited g₁) (h' : g₁.Edited g₂) : g.Edited g₂ where
  wellFormed := h'.wellFormed
  topLevels_eq := h'.topLevels_eq.trans h.topLevels_eq
  size_le := Nat.le_trans h.size_le h'.size_le

/-- A node may change if its children are places of nodes. -/
theorem modify (h : g.Edited g₁) (r : NodeId) {f : Node → Node}
    (hc : ∀ n, ∀ c ∈ (f n).kind.children, c < g₁.size) : g.Edited (g₁.modify r f) where
  wellFormed := WellFormed.modify h.wellFormed hc
  topLevels_eq := h.topLevels_eq
  size_le := by
    rw [size_modify]
    exact h.size_le

end Edited

theorem Grows.edited (h : g.Grows g₁) (hg : g.WellFormed) : g.Edited g₁ :=
  ⟨h.wellFormed hg, h.topLevels_eq, h.size_le⟩

/-! ## Kept graphs -/

/-- The graph is well-formed, and its top levels have the same names. -/
structure Kept (g g₁ : Graph) : Prop where
  wellFormed : g₁.WellFormed
  keys_eq : g₁.topLevels.keys = g.topLevels.keys

theorem Kept.trans (h : g.Kept g₁) (h' : g₁.Kept g₂) : g.Kept g₂ :=
  ⟨h'.wellFormed, h'.keys_eq.trans h.keys_eq⟩

/-- Redirection to places of nodes stays among them. -/
theorem follow_lt {moved : Redirection} {n : Nat} (h : ∀ r t, moved.get? r = some t → t < n)
    {r : NodeId} (hr : r < n) : moved.follow r < n :=
  follow_induction (P := (· < n)) (fun r t ht _ => h r t ht) hr

theorem Edited.forward (h : g.Edited g₁) {moved : Redirection}
    (hm : ∀ r t, moved.get? r = some t → t < g₁.size) : g.Kept (g₁.forward moved) where
  wellFormed := wellFormed_forward h.wellFormed fun _ => follow_lt hm
  keys_eq := (OrderedMap.keys_mapValues ..).trans (congrArg OrderedMap.keys h.topLevels_eq)

/-- **Collection keeps well-formed graphs.** -/
theorem kept_collect (hg : g.WellFormed) : g.Kept g.collect := by
  refine ⟨wellFormed_of_children (fun i c hc => ?_) fun i hi => ?_, OrderedMap.keys_mapValues ..⟩
  · obtain ⟨r, hr, rfl⟩ := exists_place_eq (lt_size_of_mem_children hc)
    rw [kind_collect hr, Kind.mem_children_mapChildren] at hc
    obtain ⟨c, hc, rfl⟩ := hc
    rw [size_collect]
    exact (getElem_place (mem_reachable_of_mem_children hg hr hc)).1
  · have htop : g.collect.topLevels = g.topLevels.mapValues g.place := rfl
    simp only [htop, OrderedMap.values, OrderedMap.mapValues, List.map_map, List.mem_map,
      Function.comp_apply] at hi
    obtain ⟨e, he, rfl⟩ := hi
    have hr : e.2 ∈ g.reachable := mem_reachable_of_mem_values hg (List.mem_map_of_mem he)
    rw [size_collect]
    exact (getElem_place hr).1

theorem Kept.collect (h : g.Kept g₁) : g.Kept g₁.collect := h.trans (kept_collect h.wellFormed)

end Graph

end SchemaTypes
