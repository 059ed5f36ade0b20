/-
  What collection keeps.

  `Graph.collect` keeps the reachable nodes of a well-formed graph and numbers them anew
  (`Graph.place`): every kept node has its old kind with its children renamed
  (`kind_collect`), so that it admits the same values (`admits_collect`), and nothing but
  reachable nodes is left (`reached_collect`).
-/
import SchemaTypes.Graph.Walk
import SchemaTypes.Proofs.Admission

namespace SchemaTypes

/-! ## Renaming twice -/

theorem SortedSet.map_map (f f' : NodeId → NodeId) (s : SortedSet NodeId) :
    (s.map f).map f' = s.map (f' ∘ f) := by
  ext a
  simp only [mem_map, Function.comp_apply]
  constructor
  · rintro ⟨_, ⟨c, hc, rfl⟩, h⟩
    exact ⟨c, hc, h⟩
  · rintro ⟨c, hc, h⟩
    exact ⟨f c, ⟨c, hc, rfl⟩, h⟩

theorem Properties.mapTypes_mapTypes (f f' : NodeId → NodeId) (ps : Properties) :
    (ps.mapTypes f).mapTypes f' = ps.mapTypes (f' ∘ f) := by
  simp [mapTypes, OrderedMap.mapValues, Function.comp_def]

theorem Properties.mapTypes_congr {f f' : NodeId → NodeId} {ps : Properties}
    (h : ∀ c ∈ ps.types, f c = f' c) : ps.mapTypes f = ps.mapTypes f' := by
  simp only [mapTypes, OrderedMap.mapValues, OrderedMap.mk.injEq, List.map_inj_left,
    Prod.mk.injEq, Property.mk.injEq, true_and, and_true]
  exact fun e he => h _ (List.mem_map.2 ⟨e.2, List.mem_map.2 ⟨e, he, rfl⟩, rfl⟩)

namespace Kind

theorem mapChildren_mapChildren (f f' : NodeId → NodeId) (k : Kind) :
    (k.mapChildren f).mapChildren f' = k.mapChildren (f' ∘ f) := by
  cases k with
  | object ps additional => simp [mapChildren, Properties.mapTypes_mapTypes]
  | record ps => simp [mapChildren, Properties.mapTypes_mapTypes]
  | union ms => simp [mapChildren, SortedSet.map_map]
  | intersection ms => simp [mapChildren, SortedSet.map_map]
  | _ => rfl

theorem mapChildren_congr {f f' : NodeId → NodeId} {k : Kind}
    (h : ∀ c ∈ k.children, f c = f' c) : k.mapChildren f = k.mapChildren f' := by
  cases k with
  | array items => simp [mapChildren, h items (by simp [children])]
  | map values => simp [mapChildren, h values (by simp [children])]
  | object ps additional =>
    simp only [mapChildren]
    rw [Properties.mapTypes_congr fun c hc => h c (by simp [children, hc])]
    cases additional with
    | none => rfl
    | some a => simp [h a (by simp [children])]
  | record ps => simp only [mapChildren]; rw [Properties.mapTypes_congr h]
  | union ms =>
    simp only [mapChildren, union.injEq]
    ext a
    simp only [SortedSet.mem_map]
    exact exists_congr fun c => and_congr_right fun hc => by rw [h c hc]
  | intersection ms =>
    simp only [mapChildren, intersection.injEq]
    ext a
    simp only [SortedSet.mem_map]
    exact exists_congr fun c => and_congr_right fun hc => by rw [h c hc]
  | _ => rfl

theorem mapChildren_id (k : Kind) : k.mapChildren id = k := by
  cases k with
  | object ps additional =>
    simp [mapChildren, Properties.mapTypes, OrderedMap.mapValues]
  | record ps => simp [mapChildren, Properties.mapTypes, OrderedMap.mapValues]
  | union ms => simp only [mapChildren, union.injEq]; ext a; simp
  | intersection ms => simp only [mapChildren, intersection.injEq]; ext a; simp
  | _ => rfl

end Kind

namespace Graph

variable {g : Graph} {ρ : Reading}

/-! ## Reachable nodes -/

theorem node_mem {r : NodeId} (h : r < g.size) : g.node r ∈ g.nodes := by
  have hr : r < g.nodes.size := h
  rw [node, Array.getD_eq_getD_getElem?, Array.getElem?_eq_getElem hr]
  exact Array.getElem_mem hr

theorem node_eq_default_of_le {r : NodeId} (h : g.size ≤ r) : g.node r = default := by
  simp [node, Array.getD, show ¬r < g.nodes.size from Nat.not_lt.2 h]

theorem kind_eq_nothing_of_le {r : NodeId} (h : g.size ≤ r) : g.kind r = .nothing := by
  rw [kind, node_eq_default_of_le h]
  rfl

theorem lt_size_of_kind_ne {r : NodeId} (h : g.kind r ≠ .nothing) : r < g.size :=
  Nat.not_le.1 fun hr => h (kind_eq_nothing_of_le hr)

/-- Only nodes of the graph admit anything. -/
theorem lt_size_of_admits {A : NodeId → Json → Prop} {r : NodeId} {v : Json}
    (hv : (g.kind r).Admits ρ A v) : r < g.size := by
  refine lt_size_of_kind_ne fun hk => ?_
  rw [hk] at hv
  exact hv

theorem lt_size_of_isUnion {r : NodeId} (h : (g.kind r).isUnion = true) : r < g.size := by
  refine lt_size_of_kind_ne fun hn => ?_
  rw [hn] at h
  cases h

theorem lt_size_of_isIntersection {r : NodeId} (h : (g.kind r).isIntersection = true) :
    r < g.size := by
  refine lt_size_of_kind_ne fun hn => ?_
  rw [hn] at h
  cases h

theorem lt_size_of_isObjectLike {r : NodeId} (h : (g.kind r).isObjectLike = true) :
    r < g.size := by
  refine lt_size_of_kind_ne fun hn => ?_
  rw [hn] at h
  cases h

theorem lt_size_of_mem_children {r c : NodeId} (h : c ∈ (g.kind r).children) : r < g.size := by
  refine lt_size_of_kind_ne fun hn => ?_
  rw [hn] at h
  cases h

theorem lt_size_of_record {r : NodeId} {ps : Properties} (hr : g.kind r = .record ps) : r < g.size :=
  lt_size_of_isObjectLike (hr ▸ rfl)

/-- In a well-formed graph the children of any place are places of nodes. -/
theorem WellFormed.lt_of_mem_children (hg : g.WellFormed) {r c : NodeId}
    (hc : c ∈ (g.kind r).children) : c < g.size := by
  by_cases hr : r < g.size
  · exact hg.1 _ (node_mem hr) c hc
  · rw [kind_eq_nothing_of_le (Nat.not_lt.1 hr)] at hc
    simp [Kind.children] at hc

theorem WellFormed.lt_of_topLevel (hg : g.WellFormed) {name : String} {r : NodeId}
    (h : g.topLevel? name = some r) : r < g.size := by
  exact hg.2 r (OrderedMap.mem_values_of_get? h)

/-- A graph is well-formed if all places have children that are places of nodes. -/
theorem wellFormed_of_children (h : ∀ r, ∀ c ∈ (g.kind r).children, c < g.size)
    (ht : ∀ r ∈ g.topLevels.values, r < g.size) : g.WellFormed := by
  refine ⟨fun n hn c hc => ?_, ht⟩
  obtain ⟨r, hr, rfl⟩ := Array.mem_iff_getElem.1 hn
  refine h r c ?_
  simpa [kind, node, Array.getD, hr] using hc

theorem mem_reachable_of_mem_values (hg : g.WellFormed) {r : NodeId}
    (h : r ∈ g.topLevels.values) : r ∈ g.reachable :=
  mem_walk_of_mem_starts h (hg.2 r h)

theorem mem_reachable_of_topLevel (hg : g.WellFormed) {name : String} {r : NodeId}
    (h : g.topLevel? name = some r) : r ∈ g.reachable := by
  exact mem_reachable_of_mem_values hg (OrderedMap.mem_values_of_get? h)

theorem mem_reachable_of_mem_children (hg : g.WellFormed) {r c : NodeId} (h : r ∈ g.reachable)
    (hc : c ∈ (g.kind r).children) : c ∈ g.reachable :=
  mem_walk_of_mem_next h hc (hg.lt_of_mem_children hc)

/-! ## Places -/

theorem getD_foldl_setIfInBounds {l : List (Nat × Nat)} (hl : (l.map Prod.fst).Nodup)
    {a : Array Nat} {e : Nat × Nat} (he : e ∈ l) (hlt : e.1 < a.size) (d : Nat) :
    (l.foldl (fun a e => a.setIfInBounds e.1 e.2) a).getD e.1 d = e.2 := by
  induction l generalizing a with
  | nil => simp at he
  | cons b l ih =>
    rw [List.map_cons, List.nodup_cons] at hl
    rw [List.foldl_cons]
    rcases List.mem_cons.1 he with rfl | he
    · -- the places set later are others
      clear ih
      have key : ∀ (l : List (Nat × Nat)) (a : Array Nat), e.1 ∉ l.map Prod.fst →
          (l.foldl (fun a e => a.setIfInBounds e.1 e.2) a).getD e.1 d = a.getD e.1 d := by
        intro l
        induction l with
        | nil => exact fun _ _ => rfl
        | cons c l ih =>
          intro a hc
          rw [List.map_cons, List.mem_cons, not_or] at hc
          rw [List.foldl_cons, ih _ hc.2, Array.getD_eq_getD_getElem?,
            Array.getD_eq_getD_getElem?, Array.getElem?_setIfInBounds,
            if_neg fun h => hc.1 h.symm]
      rw [key l _ hl.1, Array.getD_eq_getD_getElem?, Array.getElem?_setIfInBounds]
      simp [hlt]
    · exact ih hl.2 he (by simpa using hlt)

/-- The place of a node after collection. -/
def place (g : Graph) (r : NodeId) : NodeId :=
  (places g.size g.reachable).getD r g.reachable.length

theorem place_getElem {i : Nat} (h : i < g.reachable.length) : g.place g.reachable[i] = i := by
  refine getD_foldl_setIfInBounds (e := (g.reachable[i], i)) ?_ ?_ ?_ _
  · rw [List.zipIdx_map_fst]
    exact nodup_walk
  · exact List.mem_zipIdx_iff_getElem?.2 (List.getElem?_eq_getElem h)
  · simpa using lt_of_mem_walk (List.getElem_mem h)

theorem getElem_place {r : NodeId} (h : r ∈ g.reachable) :
    ∃ hp : g.place r < g.reachable.length, g.reachable[g.place r] = r := by
  obtain ⟨i, hi, rfl⟩ := List.mem_iff_getElem.1 h
  rw [place_getElem hi]
  exact ⟨hi, rfl⟩

theorem place_injective {r s : NodeId} (hr : r ∈ g.reachable) (hs : s ∈ g.reachable)
    (h : g.place r = g.place s) : r = s := by
  obtain ⟨_, er⟩ := getElem_place hr
  obtain ⟨_, es⟩ := getElem_place hs
  rw [← er, ← es]
  simp only [h]

/-! ## Collected graphs -/

@[simp] theorem size_renameReferences (g : Graph) (f : NodeId → NodeId) :
    (g.renameReferences f).size = g.size := by
  simp [renameReferences, size]

theorem node_renameReferences (g : Graph) (f : NodeId → NodeId) (r : NodeId) :
    (g.renameReferences f).node r = { g.node r with kind := (g.kind r).mapChildren f } := by
  simp only [node, kind, renameReferences, Array.getD_eq_getD_getElem?, Array.getElem?_map]
  cases g.nodes[r]? <;> rfl

theorem kind_renameReferences (g : Graph) (f : NodeId → NodeId) (r : NodeId) :
    (g.renameReferences f).kind r = (g.kind r).mapChildren f := by
  rw [kind, node_renameReferences]

@[simp] theorem size_collect : g.collect.size = g.reachable.length := by
  rw [collect, size_renameReferences]
  simp [size]

theorem node_collect {r : NodeId} (h : r ∈ g.reachable) :
    g.collect.node (g.place r) = { g.node r with kind := (g.kind r).mapChildren g.place } := by
  obtain ⟨hp, e⟩ := getElem_place h
  have hnode : ({ g with nodes := (g.reachable.map g.node).toArray } : Graph).node (g.place r) =
      g.node r := by
    simp [node, Array.getD_eq_getD_getElem?, hp, e]
  rw [collect, node_renameReferences, kind, hnode]
  rfl

theorem kind_collect {r : NodeId} (h : r ∈ g.reachable) :
    g.collect.kind (g.place r) = (g.kind r).mapChildren g.place := by
  rw [kind, node_collect h]

theorem topLevel?_collect (g : Graph) (name : String) :
    g.collect.topLevel? name = (g.topLevel? name).map g.place :=
  OrderedMap.get?_mapValues ..

/-- Every place of a collected graph is the new place of a reachable node. -/
theorem exists_place_eq {i : NodeId} (h : i < g.collect.size) :
    ∃ r ∈ g.reachable, g.place r = i := by
  rw [size_collect] at h
  exact ⟨_, List.getElem_mem h, place_getElem h⟩

theorem isEmpty_idsWhere {p : Kind → Bool} (h : ∀ r < g.size, p (g.kind r) = false) :
    (g.idsWhere p).isEmpty = true := by
  rw [List.isEmpty_iff, idsWhere, List.filter_eq_nil_iff]
  exact fun r hr => Bool.eq_false_iff.1 (h r (List.mem_range.1 hr))

/-- If no intersection is collected, none is reachable. -/
theorem isIntersection_of_collect (hdone : (g.collect.idsWhere Kind.isIntersection).isEmpty = true)
    {r : NodeId} (hr : r ∈ g.reachable) : (g.kind r).isIntersection = false := by
  rw [← Bool.not_eq_true]
  intro hi
  have hplace : g.place r < g.collect.size := by
    rw [size_collect]
    exact (getElem_place hr).1
  have hmem : g.place r ∈ g.collect.idsWhere Kind.isIntersection := by
    refine List.mem_filter.2 ⟨List.mem_range.2 hplace, ?_⟩
    rw [kind_collect hr, Kind.isIntersection_mapChildren]
    exact hi
  rw [List.isEmpty_iff.1 hdone] at hmem
  cases hmem

/-- The top levels lead to the node. -/
inductive Reached (g : Graph) : NodeId → Prop
  | topLevel {name : String} {r : NodeId} (h : g.topLevel? name = some r) : Reached g r
  | child {r c : NodeId} (hr : Reached g r) (hc : c ∈ (g.kind r).children) : Reached g c

theorem Reached.mono {h : Graph} (ht : h.topLevels = g.topLevels)
    (hc : ∀ r, ∀ c ∈ (g.kind r).children, c ∈ (h.kind r).children) {r : NodeId}
    (hr : g.Reached r) : h.Reached r := by
  induction hr with
  | topLevel hr =>
    rw [topLevel?, ← ht] at hr
    exact .topLevel hr
  | child _ hcr ih => exact .child ih (hc _ _ hcr)

theorem Reached.mem_reachable (hg : g.WellFormed) {r : NodeId} (hr : g.Reached r) :
    r ∈ g.reachable := by
  induction hr with
  | topLevel hr => exact mem_reachable_of_topLevel hg hr
  | child _ hc ih => exact mem_reachable_of_mem_children hg ih hc

/-- **The top levels of a collected graph lead to all its nodes.** -/
theorem reached_collect (hg : g.WellFormed) {i : NodeId} (hi : i < g.collect.size) :
    g.collect.Reached i := by
  obtain ⟨r, hr, rfl⟩ := exists_place_eq hi
  have hor : r < g.size → r ∈ g.reachable ∧ g.collect.Reached (g.place r) := by
    refine walk_induction (P := fun r => r < g.size → r ∈ g.reachable ∧
      g.collect.Reached (g.place r)) (fun r hr hlt => ?_) (fun r c ih hc hlt => ?_) hr
    · obtain ⟨e, he, rfl⟩ := List.mem_map.1 hr
      have htop : g.collect.topLevel? e.1 = some (g.place e.2) := by
        rw [topLevel?_collect, topLevel?, OrderedMap.get?_eq_some_iff.2 he]
        rfl
      exact ⟨mem_reachable_of_mem_values hg hr, .topLevel htop⟩
    · obtain ⟨hr, hreached⟩ := ih (lt_size_of_mem_children hc)
      refine ⟨mem_reachable_of_mem_children hg hr hc, .child hreached ?_⟩
      rw [kind_collect hr]
      exact (Kind.mem_children_mapChildren ..).2 ⟨c, hc, rfl⟩
  exact (hor (lt_of_mem_walk hr)).2

/-! ## Admission -/

/-- Nodes admit what their images in another graph admit, if the kinds of the images are
    theirs with the children renamed. -/
theorem Admits.rename {h : Graph} {f : NodeId → NodeId} {P : NodeId → Prop}
    (hkind : ∀ r, P r → h.kind (f r) = (g.kind r).mapChildren f)
    (hP : ∀ r, P r → ∀ c ∈ (g.kind r).children, P c) {r : NodeId} {v : Json} (hr : P r)
    (hv : g.Admits ρ r v) : h.Admits ρ (f r) v := by
  revert hr
  refine Admits.induction (P := fun r v => P r → h.Admits ρ (f r) v) (fun r v ih hr => ?_) hv
  rw [admits_iff, hkind r hr, Kind.admits_mapChildren]
  exact ih.mono fun c hc w hw => hw.2 (hP r hr c hc)

/-- **Collection keeps what reachable nodes admit.** -/
theorem admits_collect (hg : g.WellFormed) {r : NodeId} (hr : r ∈ g.reachable) {v : Json} :
    g.collect.Admits ρ (g.place r) v ↔ g.Admits ρ r v := by
  constructor
  · intro h
    -- back along the list of reachable nodes
    have key := Admits.rename (g := g.collect) (h := g)
      (f := fun i => (g.reachable[i]?).getD 0) (P := fun i => ∃ s ∈ g.reachable, g.place s = i)
      (fun i => ?_) (fun i => ?_) ⟨r, hr, rfl⟩ h
    · obtain ⟨hp, e⟩ := getElem_place hr
      simpa [hp, e] using key
    · rintro ⟨s, hs, rfl⟩
      obtain ⟨hp, e⟩ := getElem_place hs
      have hid : ∀ c ∈ (g.kind s).children,
          ((fun i => (g.reachable[i]?).getD 0) ∘ g.place) c = id c := by
        intro c hc
        obtain ⟨hpc, ec⟩ := getElem_place (mem_reachable_of_mem_children hg hs hc)
        simp [hpc, ec]
      rw [kind_collect hs, Kind.mapChildren_mapChildren, Kind.mapChildren_congr hid,
        Kind.mapChildren_id]
      simp [hp, e]
    · rintro ⟨s, hs, rfl⟩ c hc
      rw [kind_collect hs, Kind.mem_children_mapChildren] at hc
      obtain ⟨c, hc, rfl⟩ := hc
      exact ⟨c, mem_reachable_of_mem_children hg hs hc, rfl⟩
  · exact Admits.rename (fun s hs => kind_collect hs)
      (fun s hs c hc => mem_reachable_of_mem_children hg hs hc) hr

theorem admitsAt_collect (hg : g.WellFormed) {name : String} {v : Json} :
    g.collect.AdmitsAt ρ name v ↔ g.AdmitsAt ρ name v := by
  simp only [AdmitsAt, topLevel?_collect]
  constructor
  · rintro ⟨_, h, hv⟩
    obtain ⟨r, hr, rfl⟩ := Option.map_eq_some_iff.1 h
    exact ⟨r, hr, (admits_collect hg (mem_reachable_of_topLevel hg hr)).1 hv⟩
  · rintro ⟨r, hr, hv⟩
    exact ⟨g.place r, by rw [hr]; rfl,
      (admits_collect hg (mem_reachable_of_topLevel hg hr)).2 hv⟩

end Graph

end SchemaTypes
