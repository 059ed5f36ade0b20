/-
  Intersections nested in intersections.

  Resolution reads an intersection through `Graph.expandedMembers`, the members that are no
  intersections, however deep they are nested.  `Graph.unnested` gives intersections those
  members; what its nodes admit is the meaning that resolution keeps.

  * `admits_unnested`: whatever a graph admits, it admits with intersections unnested;
  * `admits_of_unnested`: the converse, where no intersection is nested in itself;
  * `unnested_iff`, `unnested_induction`: how to read and how to establish what the unnested
    graph admits.
-/
import SchemaTypes.Graph.Resolution
import SchemaTypes.Proofs.Simulation

namespace SchemaTypes

theorem Kind.admits_intersection_iff {ρ : Reading} {A : NodeId → Json → Prop} {k : Kind} {v : Json}
    (h : k.isIntersection = true) : k.Admits ρ A v ↔ ∀ m ∈ k.intersectionMembers, A m v := by
  cases k with
  | intersection ms => exact Iff.rfl
  | _ => cases h

namespace Graph

variable {ρ : Reading} {g g' : Graph} {r x : NodeId} {v : Json}

/-! ## Nested members -/

/-- A node, and the members that intersections nest in it. -/
def nested (g : Graph) (r : NodeId) : List NodeId := g.walk Kind.intersectionMembers [r]

theorem mem_expandedMembers {m : NodeId} :
    m ∈ g.expandedMembers r ↔ m ∈ g.nested r ∧ (g.kind m).isIntersection = false := by
  simp [expandedMembers, nested]

theorem self_mem_nested (hr : r < g.size) : r ∈ g.nested r :=
  mem_walk_of_mem_starts (by simp) hr

theorem mem_nested_of_mem (hg : g.WellFormed) {c : NodeId} (hx : x ∈ g.nested r)
    (hc : c ∈ (g.kind x).intersectionMembers) : c ∈ g.nested r :=
  mem_walk_of_mem_next hx hc
    (hg.lt_of_mem_children (Kind.mem_children_of_mem_intersectionMembers hc))

theorem nested_induction {P : NodeId → Prop} (hr : P r)
    (hP : ∀ x c, P x → c ∈ (g.kind x).intersectionMembers → P c) (hx : x ∈ g.nested r) : P x :=
  walk_induction (fun s hs => by rwa [List.mem_singleton.1 hs]) hP hx

/-- What is nested in what is nested is nested. -/
theorem nested_trans (hg : g.WellFormed) {y : NodeId} (hx : x ∈ g.nested r)
    (hy : y ∈ g.nested x) : y ∈ g.nested r :=
  nested_induction hx (fun _ _ h hc => mem_nested_of_mem hg h hc) hy

/-! ## Unnested intersections -/

/-- The graph in which an intersection has the members that are no intersections, however deep
    they are nested in it. -/
def unnested (g : Graph) : Graph where
  nodes := (g.ids.map fun r =>
    if (g.kind r).isIntersection then
      { g.node r with kind := .intersection (.ofList (g.expandedMembers r)) }
    else g.node r).toArray
  topLevels := g.topLevels

@[simp] theorem size_unnested (g : Graph) : g.unnested.size = g.size := by
  simp [unnested, size, ids]

theorem kind_unnested (g : Graph) (r : NodeId) :
    g.unnested.kind r =
      if (g.kind r).isIntersection then .intersection (.ofList (g.expandedMembers r))
      else g.kind r := by
  by_cases hr : r < g.size
  · simp only [kind, node, unnested, ids, Array.getD_eq_getD_getElem?, List.getElem?_toArray,
      List.getElem?_map, List.getElem?_range hr, Option.map_some, Option.getD_some]
    split <;> rfl
  · have hk : g.kind r = .nothing := kind_eq_nothing_of_le (Nat.not_lt.1 hr)
    rw [kind_eq_nothing_of_le (by simpa using hr), hk]
    rfl

theorem kind_unnested_of_not (h : (g.kind r).isIntersection = false) :
    g.unnested.kind r = g.kind r := by
  rw [kind_unnested, h]
  rfl

theorem wellFormed_unnested (hg : g.WellFormed) : g.unnested.WellFormed := by
  refine wellFormed_of_children (fun r c hc => ?_) fun r hr => ?_
  · rw [size_unnested]
    rw [kind_unnested] at hc
    split at hc
    · have hc := SortedSet.mem_ofList.1 (SortedSet.mem_toList.1 hc)
      exact lt_of_mem_walk (mem_expandedMembers.1 hc).1
    · exact hg.lt_of_mem_children hc
  · rw [size_unnested]
    exact hg.2 r hr

theorem admits_unnested_iff (hr : (g.kind r).isIntersection = true) :
    g.unnested.Admits ρ r v ↔ ∀ m ∈ g.expandedMembers r, g.unnested.Admits ρ m v := by
  rw [admits_intersection (by rw [kind_unnested, if_pos hr])]
  simp

/-- Members admit what an intersection does. -/
theorem admits_of_mem (hg : g.WellFormed) {c : NodeId} (hc : c ∈ (g.kind r).intersectionMembers)
    (hv : g.unnested.Admits ρ r v) : g.unnested.Admits ρ c v := by
  have hr := Kind.isIntersection_of_mem hc
  have hcr : c ∈ g.nested r := by
    exact mem_nested_of_mem hg (self_mem_nested (lt_size_of_isIntersection hr)) hc
  rw [admits_unnested_iff hr] at hv
  by_cases hci : (g.kind c).isIntersection = true
  · rw [admits_unnested_iff hci]
    intro m hm
    obtain ⟨hm, hmi⟩ := mem_expandedMembers.1 hm
    exact hv m (mem_expandedMembers.2 ⟨nested_trans hg hcr hm, hmi⟩)
  · exact hv c (mem_expandedMembers.2 ⟨hcr, by simpa using hci⟩)

/-- **Intersections admit a value unless something nested in them does not**: nodes all admit a
    value if each does, or else is an intersection of some of them. -/
theorem unnested_induction (hg : g.WellFormed) {X : NodeId → Prop}
    (hX : ∀ x, X x → g.unnested.Admits ρ x v ∨
      (g.kind x).isIntersection = true ∧ ∀ c ∈ (g.kind x).intersectionMembers, X c)
    (hr : X r) : g.unnested.Admits ρ r v := by
  rcases hX r hr with hv | ⟨hri, -⟩
  · exact hv
  refine (admits_unnested_iff hri).2 fun m hm => ?_
  obtain ⟨hm, hmi⟩ := mem_expandedMembers.1 hm
  have key : X m ∨ g.unnested.Admits ρ m v := by
    refine nested_induction (P := fun x => X x ∨ g.unnested.Admits ρ x v) (.inl hr) ?_ hm
    rintro x c (hx | hx) hc
    · rcases hX x hx with hv | ⟨-, hmem⟩
      · exact .inr (admits_of_mem hg hc hv)
      · exact .inl (hmem c hc)
    · exact .inr (admits_of_mem hg hc hx)
  rcases key with hm | hm
  · refine (hX m hm).resolve_right fun h => ?_
    rw [hmi] at h
    cases h.1
  · exact hm

/-- The unnested graph admits by the kinds of the graph. -/
theorem unnested_iff (hg : g.WellFormed) :
    g.unnested.Admits ρ r v ↔ (g.kind r).Admits ρ (g.unnested.Admits ρ) v := by
  by_cases hr : (g.kind r).isIntersection = true
  · rw [Kind.admits_intersection_iff hr]
    refine ⟨fun hv c hc => admits_of_mem hg hc hv, fun hv => ?_⟩
    refine unnested_induction hg
      (X := fun x => x = r ∨ g.unnested.Admits ρ x v) (fun x hx => ?_) (.inl rfl)
    rcases hx with rfl | hx
    · exact .inr ⟨hr, fun c hc => .inr (hv c hc)⟩
    · exact .inl hx
  · rw [admits_iff, kind_unnested_of_not (by simpa using hr)]

/-! ## Nested and unnested -/

theorem admits_unnested (hg : g.WellFormed) (hv : g.Admits ρ r v) : g.unnested.Admits ρ r v := by
  refine Admits.induction (P := fun r v => g.unnested.Admits ρ r v) (fun r v ih => ?_) hv
  exact (unnested_iff hg).2 (ih.mono fun _ _ _ => And.right)

/-- Where no intersection is nested in itself, unnesting adds no values. -/
theorem admits_of_unnested (hg : g.WellFormed) {P : NodeId → Prop}
    (hP : ∀ r, P r → ∀ c ∈ (g.kind r).children, P c)
    (hacc : ∀ r, P r → Acc (fun c r => c ∈ (g.kind r).intersectionMembers) r) (hr : P r)
    (hv : g.unnested.Admits ρ r v) : g.Admits ρ r v := by
  revert hr
  refine Admits.induction (P := fun r v => P r → g.Admits ρ r v) (fun r v ih hr => ?_) hv
  by_cases hri : (g.kind r).isIntersection = true
  · -- all that is nested in the intersection admits the value, from the inside out
    rw [kind_unnested, if_pos hri] at ih
    have key : ∀ x, x ∈ g.nested r → P x → g.Admits ρ x v := by
      intro x hx hPx
      induction hacc x hPx with
      | intro x _ hin =>
        by_cases hxi : (g.kind x).isIntersection = true
        · refine admits_iff.2 ((Kind.admits_intersection_iff hxi).2 fun c hc => ?_)
          exact hin c hc (mem_nested_of_mem hg hx hc)
            (hP x hPx c (Kind.mem_children_of_mem_intersectionMembers hc))
        · have hm := mem_expandedMembers.2 ⟨hx, by simpa using hxi⟩
          exact (ih x (SortedSet.mem_ofList.2 hm)).2 hPx
    exact key r (self_mem_nested (lt_size_of_isIntersection hri)) hr
  · rw [kind_unnested_of_not (by simpa using hri)] at ih
    exact admits_iff.2 (ih.mono fun c hc w hw => hw.2 (hP r hr c hc))

/-! ## Growth -/

theorem mem_nested_iff_of_grows (h : g.Grows g') (hg : g.WellFormed) (hr : r < g.size) :
    x ∈ g'.nested r ↔ x ∈ g.nested r := by
  constructor
  · intro hx
    refine nested_induction (P := fun x => x ∈ g.nested r) (self_mem_nested hr) ?_ hx
    intro x c hx hc
    rw [h.kind_eq x (lt_of_mem_walk hx)] at hc
    exact mem_nested_of_mem hg hx hc
  · intro hx
    refine nested_induction (P := fun x => x ∈ g'.nested r ∧ x < g.size)
      ⟨self_mem_nested (Nat.lt_of_lt_of_le hr h.size_le), hr⟩ ?_ hx |>.1
    rintro x c ⟨hx, hlt⟩ hc
    have hclt := hg.lt_of_mem_children (Kind.mem_children_of_mem_intersectionMembers hc)
    rw [← h.kind_eq x hlt] at hc
    exact ⟨mem_nested_of_mem (h.wellFormed hg) hx hc, hclt⟩

theorem grows_unnested (h : g.Grows g') (hg : g.WellFormed) : g.unnested.Grows g'.unnested where
  size_le := by simpa using h.size_le
  kind_eq r hr := by
    rw [size_unnested] at hr
    rw [kind_unnested, kind_unnested, h.kind_eq r hr]
    split
    · rw [Kind.intersection.injEq]
      ext m
      simp only [SortedSet.mem_ofList, mem_expandedMembers, mem_nested_iff_of_grows h hg hr]
      refine and_congr_right fun hm => ?_
      rw [h.kind_eq m (lt_of_mem_walk hm)]
    · rfl
  topLevels_eq := h.topLevels_eq
  lt_size r _ c hc := (wellFormed_unnested (h.wellFormed hg)).lt_of_mem_children hc

/-- Growing changes nothing that an unnested graph admits. -/
theorem admits_unnested_of_grows (h : g.Grows g') (hg : g.WellFormed) (hr : r < g.size) :
    g'.unnested.Admits ρ r v ↔ g.unnested.Admits ρ r v :=
  (grows_unnested h hg).admits_iff (wellFormed_unnested hg) (by simpa using hr)

end Graph

end SchemaTypes
