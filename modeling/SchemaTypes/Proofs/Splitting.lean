/-
  Splitting object types and mapping strings lose no value, where classes are open.

  * `Reading.lenient`: an object of a class may have properties that the class does not list;
  * `widened_replaceObject`: a class or a map in place of an object type admits what the object
    type does, whatever its additional properties are of by now;
  * `Relaxes`: the top levels stay and no node loses a value; so does each of the passes
    (`relaxes_replaceObjects`, `relaxes_of_kinds`);
  * `splitting_keeps_values`: no top level loses a value.
-/
import SchemaTypes.Graph.Nullable
import SchemaTypes.Proofs.Classes
import SchemaTypes.Proofs.NearlyFlat

namespace SchemaTypes

/-- The reading in which classes are open. -/
def Reading.lenient (formats : Format → String → Prop) : Reading := ⟨formats, true⟩

namespace Graph

variable {ρ : Reading} {g₀ g g' h : Graph}

/-! ## Object types -/

/-- In place of an object type comes a class with its properties, which admits more. -/
theorem Widened.fixClass (hρ : ρ.openClasses = true) (H : Widened ρ g₀ g h) {r : NodeId}
    {ps : Properties} {additional : Option NodeId} (hr : g.kind r = .object ps additional) :
    Widened ρ g₀ (g.fixClass r ps) h := by
  refine H.modify (k := .record ps) (fun _ => rfl) rfl (fun c hc => ?_) fun v hv => ?_
  · exact H.lt_of_mem_children (r := r) (by rw [hr]; exact List.mem_append_left _ hc)
  · rw [hr] at hv
    obtain ⟨fields, rfl, hfields⟩ := hv
    exact ⟨fields, rfl, hfields.mono (fun _ _ _ _ => id) fun _ _ _ => hρ⟩

/-- In place of an object type comes a map to a type that admits what all of its types do. -/
theorem Widened.setMap (H : Widened ρ g₀ g h) {r : NodeId} {ps : Properties} {values : NodeId}
    (hr : g.kind r = .object ps (some values)) {t : NodeId} (ht : t < g.size)
    (hadm : ∀ c ∈ ps.types ++ [values], ∀ v, h.Admits ρ c v → h.Admits ρ t v) :
    Widened ρ g₀ (g.setKind r (.map t)) h := by
  refine H.modify (k := .map t) (fun _ => rfl) rfl (fun c hc => ?_) fun v hv => ?_
  · rw [List.mem_singleton.1 hc, H.size_eq]
    exact ht
  · rw [hr] at hv
    obtain ⟨fields, rfl, -, hfields⟩ := hv
    refine ⟨fields, rfl, fun e he => ?_⟩
    have hv := hfields e he
    split at hv
    · next p hp =>
      exact hadm _ (List.mem_append_left _ (Properties.mem_types hp)) _ hv
    · obtain ⟨c, hc, hv⟩ := hv
      exact hadm c (List.mem_append_right _ (Option.mem_toList.2 hc)) _ hv

/-- **Replacing an object type widens it**, also when its types were replaced before. -/
theorem widened_replaceObject (hρ : ρ.openClasses = true) (hg₀ : g₀.WellFormed)
    (leaveFull : Bool) (H : Widened ρ g₀ g h) (r : NodeId) :
    ∃ h', Widened ρ g₀ (replaceObject leaveFull g r) h' := by
  have hchild : ∀ {ps additional}, g.kind r = .object ps additional →
      ∀ c ∈ ps.types ++ additional.toList, c < g.size := fun hr c hc =>
    H.wellFormed.lt_of_mem_children (r := r) (by rw [hr]; exact hc)
  refine replaceObject_cases (P := fun g' => ∃ h', Widened ρ g₀ g' h') (fun _ => ⟨h, H⟩)
    (fun _ _ _ _ => ⟨h, H⟩) (fun _ _ hr => ⟨h, H.fixClass hρ hr⟩) (fun ps values hr hempty => ?_)
    fun ps values hr => ?_
  · refine ⟨h, H.setMap hr (hchild hr values (by simp)) fun c hc v hv => ?_⟩
    rcases List.mem_append.1 hc with hc | hc
    · obtain ⟨name, p, hp, -⟩ := Properties.exists_of_mem_types hc
      rw [OrderedMap.get?_eq_some_iff, List.isEmpty_iff.1 hempty] at hp
      cases hp
    · exact List.mem_singleton.1 hc ▸ hv
  · have hlt : ∀ m ∈ SortedSet.ofList (values :: ps.types), m < g.size := fun m hm =>
      hchild hr m (by simpa [or_comm] using SortedSet.mem_ofList.1 hm)
    have hgrows := grows_unionOf hlt
    have H₁ := H.extend hg₀ hgrows
    have hr₁ := (hgrows.kind_eq r (lt_size_of_isObjectLike (hr ▸ rfl))).trans hr
    refine ⟨_, H₁.setMap hr₁ (unionOf_lt hlt) fun c hc v hv => ?_⟩
    refine admits_unionOf (agrees_extendedBy H.size_eq) (SortedSet.mem_ofList.2 ?_) hv
    simpa [or_comm] using hc

/-! ## Passes that relax types -/

/-- The top levels stay, and every node admits what it did. -/
structure Relaxes (ρ : Reading) (g g' : Graph) : Prop where
  topLevels_eq : g'.topLevels = g.topLevels
  admits : ∀ r v, g.Admits ρ r v → g'.Admits ρ r v

theorem Relaxes.admitsAt (H : Relaxes ρ g g') {name : String} {v : Json}
    (hv : g.AdmitsAt ρ name v) : g'.AdmitsAt ρ name v := by
  obtain ⟨r, hr, hv⟩ := hv
  exact ⟨r, (congrArg (·.get? name) H.topLevels_eq).trans hr, H.admits r v hv⟩

/-- All nodes may change at once, if each gets a kind that admits what its kind did of the same
    nodes. -/
theorem relaxes_of_kinds (ht : g'.topLevels = g.topLevels)
    (hk : ∀ r (A : NodeId → Json → Prop) v, (g.kind r).Admits ρ A v → (g'.kind r).Admits ρ A v) :
    Relaxes ρ g g' where
  topLevels_eq := ht
  admits r v hv := by
    refine Admits.induction (P := fun r v => g'.Admits ρ r v) (fun r v hv => ?_) hv
    exact admits_iff.2 (hk r _ v (hv.mono fun _ _ _ => And.right))

theorem relaxes_replaceObjects (hρ : ρ.openClasses = true) (leaveFull : Bool)
    (hg : g.WellFormed) : Relaxes ρ g (replaceObjects leaveFull g) := by
  obtain ⟨h, H⟩ : ∃ h, Widened ρ g (replaceObjects leaveFull g) h :=
    List.foldlRecOn (motive := fun g₁ => ∃ h, Widened ρ g g₁ h) _ _ ⟨g, .refl hg⟩
      fun _ ⟨_, H⟩ r _ => widened_replaceObject hρ hg leaveFull H r
  refine ⟨H.topLevels_eq, fun r v hv => H.admits_of ((H.grows.admits_iff hg ?_).2 hv)⟩
  exact lt_size_of_admits (admits_iff.1 hv)

theorem relaxes_expandStrings (inference : EnumInference) (g : Graph) :
    Relaxes ρ g (expandStrings inference g) := by
  refine relaxes_of_kinds rfl fun r A v hv => ?_
  rw [kind_expandStrings]
  unfold expandString
  split
  · next cases hk =>
    rw [hk] at hv
    obtain ⟨s, rfl, hs⟩ := hv
    split
    · exact ⟨s, rfl, hs cases rfl⟩
    · exact ⟨s, rfl, fun _ hc => by cases hc⟩
  · exact hv

theorem relaxes_nothingToAny (g : Graph) : Relaxes ρ g g.nothingToAny := by
  refine relaxes_of_kinds rfl fun r A v hv => ?_
  rw [nothingToAny, kind_mapKinds _ (lt_size_of_admits hv)]
  split
  · trivial
  · exact hv

theorem relaxes_representFormats (representation : Format → Representation) (g : Graph) :
    Relaxes ρ g (representFormats representation g) := by
  refine relaxes_of_kinds rfl fun r A v hv => ?_
  rcases kind_representFormats representation g r with ⟨hk, -⟩ | ⟨⟨f, hf⟩, hk⟩ <;> rw [hk]
  · exact hv
  · rw [hf] at hv
    obtain ⟨s, rfl, -⟩ := hv
    exact ⟨s, rfl, fun _ hc => by cases hc⟩

/-- **Splitting object types and mapping strings lose no value of a top level**, where classes
    are open and formats have any strings. -/
theorem splitting_keeps_values (formats : Format → String → Prop) (hg : g.WellFormed)
    {name : String} {v : Json} (hv : g.AdmitsAt (.lenient formats) name v) :
    (∀ leaveFull, (replaceObjects leaveFull g).AdmitsAt (.lenient formats) name v) ∧
      (∀ inference, (expandStrings inference g).AdmitsAt (.lenient formats) name v) ∧
      g.nothingToAny.AdmitsAt (.lenient formats) name v ∧
      ∀ representation, (representFormats representation g).AdmitsAt (.lenient formats) name v :=
  ⟨fun leaveFull => (relaxes_replaceObjects rfl leaveFull hg).admitsAt hv,
    fun inference => (relaxes_expandStrings inference g).admitsAt hv,
    (relaxes_nothingToAny g).admitsAt hv,
    fun representation => (relaxes_representFormats representation g).admitsAt hv⟩

/-- Trees: a name, and trees under any other keys. -/
def trees : Graph where
  nodes := #[.new (.object (.ofList [("name", ⟨1, false⟩)]) (some 0)),
    .new (.string (some (.ofList ["oak"])))]
  topLevels := .ofList [("Tree", 0)]

/-- A tree with a tree in it. -/
def twoTrees : Json :=
  .object [("name", .string "oak"), ("left", .object [("name", .string "oak")])]

theorem admits_trees {formats : Format → String → Prop} {fields : Json.Fields}
    (h : ∀ e ∈ fields, e.1 ≠ "name" ∧ trees.Admits (.lenient formats) 0 e.2) :
    trees.Admits (.lenient formats) 0 (.object (("name", .string "oak") :: fields)) := by
  have hname : trees.Admits (.lenient formats) 1 (.string "oak") :=
    admits_iff.2 ⟨"oak", rfl, fun c hc => by cases hc; decide⟩
  have hget : ∀ name, (OrderedMap.ofList [("name", (⟨1, false⟩ : Property))]).get? name =
      if name = "name" then some ⟨1, false⟩ else none :=
    fun name => OrderedMap.get?_insert (∅ : Properties) "name" name ⟨1, false⟩
  refine admits_iff.2 ⟨_, rfl, fun name p hp _ => ?_, fun e he => ?_⟩
  · rw [hget] at hp
    split at hp
    · next heq => exact heq ▸ List.mem_cons_self
    · cases hp
  · rw [hget]
    rcases List.mem_cons.1 he with rfl | he
    · exact hname
    · rw [if_neg (h e he).1]
      exact ⟨0, rfl, (h e he).2⟩

/-- Trees become maps to trees and names. -/
theorem splitting_keeps_twoTrees :
    trees.WellFormed ∧ trees.AdmitsAt (.lenient fun _ _ => False) "Tree" twoTrees ∧
      (replaceObjects false trees).kind 0 = .map 2 ∧
      (replaceObjects false trees).AdmitsAt (.lenient fun _ _ => False) "Tree" twoTrees := by
  have hg : trees.WellFormed := ⟨by decide, by decide⟩
  have hv : trees.AdmitsAt (.lenient fun _ _ => False) "Tree" twoTrees :=
    ⟨0, rfl, admits_trees fun e he => by
      obtain rfl := List.mem_singleton.1 he
      exact ⟨by decide, admits_trees (by simp)⟩⟩
  exact ⟨hg, hv, by decide, (splitting_keeps_values _ hg hv).1 false⟩

end Graph

end SchemaTypes
