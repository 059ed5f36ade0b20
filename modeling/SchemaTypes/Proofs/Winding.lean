/-
  Intersections of arrays.

  An intersection of arrays becomes an array whose items are a new intersection, of the items of
  all (`resolve_arrays`).  Where an array leads back to the intersection itself while another goes
  on without it, the new intersection is again of that form:

  * `Strand`: a graph with an intersection of arrays, and no other;
  * `Winding`: one where arrays of both sorts are intersected;
  * `Coil`: what is known when resolution has come to such a graph (`Coil.resolve`, `Coil.round`);
  * `coil_rounds`: resolution comes to such a graph after any number of rounds;
  * `not_done_of_winding`: so an intersection is always left.
-/
import SchemaTypes.Proofs.Rounds
import SchemaTypes.Proofs.Collection

namespace SchemaTypes

open SchemaTypes.Graph

/-! ## Resolved intersections of arrays -/

theorem SortedSet.size_ne_one {set : SortedSet NodeId} {a b : NodeId} (ha : a ∈ set) (hb : b ∈ set)
    (hab : a ≠ b) : set.size ≠ 1 := fun h => by
  obtain ⟨only, he⟩ := List.length_eq_one_iff.1 h
  rw [← mem_toList, he] at ha hb
  exact hab ((List.mem_singleton.1 ha).trans (List.mem_singleton.1 hb).symm)

namespace Graph

variable {g : Graph} {r : NodeId}

/-- The type of the items, where a node is an array. -/
def itemOf (g : Graph) (r : NodeId) : NodeId :=
  match g.kind r with
  | .array items => items
  | _ => r

theorem itemOf_eq {items : NodeId} (h : g.kind r = .array items) : g.itemOf r = items := by
  rw [itemOf, h]

theorem lt_size_of_array {items : NodeId} (h : g.kind r = .array items) : r < g.size :=
  lt_size_of_kind_ne (by rw [h]; nofun)

/-- Arrays wait for nothing, and are described by their items. -/
theorem walk_array {items : NodeId} (hk : g.kind r = .array items) :
    g.walk Kind.unionMembers [r] = [r] := by
  rw [walk_of_leaves (lt_size_of_array hk)] <;> simp [hk, Kind.unionMembers]

theorem awaitsIntersection_array {items : NodeId} (hk : g.kind r = .array items) :
    g.awaitsIntersection r = false := by
  rw [awaitsIntersection, walk_array hk, List.any_cons, hk]
  rfl

/-- Where no member of an intersection is one, the expanded members are the members. -/
theorem expandedMembers_of_leaves {ms : SortedSet NodeId} (hk : g.kind r = .intersection ms)
    (hms : ∀ m ∈ ms, m < g.size ∧ (g.kind m).isIntersection = false) :
    g.expandedMembers r = ms.toList := by
  have hnext : (g.kind r).intersectionMembers = ms.toList := by rw [hk]; rfl
  have hi : (g.kind r).isIntersection = true := by rw [hk]; rfl
  unfold expandedMembers
  rw [walk_of_leaves (lt_size_of_isIntersection hi), hnext, List.filter_cons_of_neg (by simp [hi]),
    List.filter_eq_self.2 fun m hm => by simp [(hms m hm).2]]
  · rw [hnext, List.nodup_cons]
    refine ⟨fun hr => ?_, ms.sorted.imp Nat.ne_of_lt⟩
    rw [(hms r hr).2] at hi
    cases hi
  · intro m hm
    rw [hnext] at hm
    refine ⟨(hms m hm).1, List.eq_nil_iff_forall_not_mem.2 fun c hc => ?_⟩
    have := Kind.isIntersection_of_mem hc
    rw [(hms m hm).2] at this
    cases this

/-- The node `e` becomes an array of a new intersection. -/
def unrolled (g : Graph) (e : NodeId) (items : SortedSet NodeId) (attributes : Attributes) :
    Graph :=
  (g.push (.new (.intersection items))).modify e
    ({ · with kind := .array g.size, attributes, fixed := false })

section
variable {e : NodeId} {items : SortedSet NodeId} (attributes : Attributes)

theorem size_unrolled : (g.unrolled e items attributes).size = g.size + 1 := by
  rw [unrolled, size_modify, size_push]

theorem kind_unrolled (he : e < g.size) (r : NodeId) : (g.unrolled e items attributes).kind r =
    if e = r then .array g.size else if r = g.size then .intersection items else g.kind r := by
  by_cases hr : r < (g.push (.new (.intersection items))).size
  · rw [unrolled, kind_modify _ _ _ _ hr, kind_push]
    rfl
  · rw [size_push] at hr
    have hle : g.size ≤ r := Nat.le_of_not_lt fun h => hr (Nat.lt_succ_of_lt h)
    rw [kind_eq_nothing_of_le (by rw [size_unrolled]; exact Nat.le_of_not_lt hr),
      if_neg, if_neg, kind_eq_nothing_of_le hle]
    · rintro rfl
      exact hr (Nat.lt_succ_self _)
    · rintro rfl
      exact absurd he (Nat.not_lt.2 hle)

theorem wellFormed_unrolled (hg : g.WellFormed) (hitems : ∀ i ∈ items, i < g.size) :
    (g.unrolled e items attributes).WellFormed := by
  refine ((grows_push fun c hc => ?_).wellFormed hg).modify fun n c hc => ?_
  · exact Nat.lt_succ_of_lt (hitems c hc)
  · rw [List.mem_singleton.1 hc, size_push]
    exact Nat.lt_succ_self _

end

end Graph

namespace Resolution

variable {s : Resolution}

/-- The description of arrays of items of all of several types. -/
def arraysOf (items : List NodeId) : Admitted :=
  { Admitted.nothing with arrays := some (items.map .singleton) }

theorem admitted_array {g : Graph} {r items : NodeId} (hk : g.kind r = .array items) :
    g.admitted false r = some (arraysOf [items]) := by
  rw [admitted, walk_array hk, List.map_singleton, hk]
  rfl

theorem meet_arrays (items : List NodeId) (i : NodeId) :
    (arraysOf items).meet (arraysOf [i]) =
      arraysOf (if i ∈ items then items else items ++ [i]) := by
  have hmem : SortedSet.singleton i ∈ items.map SortedSet.singleton ↔ i ∈ items := by
    refine ⟨fun h => ?_, List.mem_map_of_mem⟩
    obtain ⟨j, hj, heq⟩ := List.mem_map.1 h
    have hij : i ∈ SortedSet.singleton j := heq ▸ SortedSet.mem_singleton.2 rfl
    rwa [SortedSet.mem_singleton.1 hij]
  have hmeet : Alternatives.meet (some (items.map .singleton)) (some [.singleton i]) =
      some ((if i ∈ items then items else items ++ [i]).map .singleton) := by
    simp only [Alternatives.meet, List.foldl_cons, List.foldl_nil, hmem]
    split
    · rfl
    · rw [List.map_append, List.map_singleton]
  have hmeets : (arraysOf items).meet (arraysOf [i]) = { Admitted.nothing with
      arrays := Alternatives.meet (some (items.map .singleton)) (some [.singleton i]) } := rfl
  rw [hmeets, hmeet]
  rfl

theorem foldl_meet_arrays (is items : List NodeId) : ∃ all : List NodeId,
    (∀ i, i ∈ all ↔ i ∈ items ∨ i ∈ is) ∧
      (is.map fun i => arraysOf [i]).foldl Admitted.meet (arraysOf items) = arraysOf all := by
  induction is generalizing items with
  | nil => exact ⟨items, by simp, rfl⟩
  | cons i is ih =>
    obtain ⟨all, hall, heq⟩ := ih (if i ∈ items then items else items ++ [i])
    refine ⟨all, fun j => ?_, ?_⟩
    · rw [hall, List.mem_cons]
      split
      · next hi =>
        refine ⟨Or.imp_right .inr, ?_⟩
        rintro (hj | rfl | hj)
        · exact .inl hj
        · exact .inl hi
        · exact .inr hj
      · rw [List.mem_append, List.mem_singleton, or_assoc]
    · rw [List.map_cons, List.foldl_cons, meet_arrays, heq]

/-- What all of several arrays admit: arrays of items of all. -/
theorem meetAll_arrays {is : List NodeId} (h : is ≠ []) : ∃ all : List NodeId,
    (∀ i, i ∈ all ↔ i ∈ is) ∧
      Admitted.meetAll (is.map fun i => some (arraysOf [i])) = some (arraysOf all) := by
  obtain ⟨i, is, rfl⟩ := List.exists_cons_of_ne_nil h
  obtain ⟨all, hall, heq⟩ := foldl_meet_arrays is [i]
  refine ⟨all, fun j => by rw [hall, List.mem_singleton, List.mem_cons], ?_⟩
  have hsome : ((i :: is).map fun i => some (arraysOf [i])).filterMap id =
      arraysOf [i] :: is.map fun i => arraysOf [i] := by
    rw [List.filterMap_map]
    exact congrFun List.filterMap_eq_map (i :: is)
  rw [Admitted.meetAll, hsome, ← heq]

theorem unionOf_singleton (a : NodeId) (s : Resolution) :
    unionOf (.singleton a) s = (a, s) := rfl

theorem mapM_unionOf_singleton (items : List NodeId) (s : Resolution) :
    (items.map .singleton).mapM unionOf s = (items, s) := by
  induction items with
  | nil => rfl
  | cons i items ih => rw [List.map_cons, mapM_cons_apply, unionOf_singleton, ih]

/-- A set of several members gets a new node, unless a node stands for it. -/
theorem intersectionOf_new {set : SortedSet NodeId} (hsize : set.size ≠ 1)
    (hmemo : s.intersections.get? set = none) :
    intersectionOf set s = (s.graph.size, { s with
      graph := s.graph.push (.new (.intersection set))
      intersections := s.intersections.insert set s.graph.size }) := by
  rw [intersectionOf_apply, hmemo]
  split
  · next only he => exact absurd (congrArg List.length he) hsize
  · next h _ => cases h
  · rfl

/-- Nothing is made for a single member, or where a node stands for the set. -/
theorem intersectionOf_known {set : SortedSet NodeId}
    (h : set.size = 1 ∨ s.intersections.contains set = true) : (intersectionOf set s).2 = s := by
  rw [intersectionOf_apply]
  split
  · rfl
  · rfl
  · next hmemo hnot =>
    rcases h with h | h
    · obtain ⟨only, he⟩ := List.length_eq_one_iff.1 h
      exact absurd he (hnot only)
    · rw [OrderedMap.contains, hmemo] at h
      cases h

theorem parts_arrays (items : List NodeId) (s : Resolution) :
    parts (arraysOf items) s =
      ([(arrayPart (items.map .singleton) s).1], (arrayPart (items.map .singleton) s).2) := rfl

/-- **An intersection of arrays becomes an array**, whose items are the intersection of the items of
    all. -/
theorem resolve_arrays {e : NodeId} {members : List NodeId} {items : SortedSet NodeId}
    (hk : ∀ m ∈ members, s.graph.kind m = .array (s.graph.itemOf m))
    (hitems : ∀ i, i ∈ items ↔ ∃ m ∈ members, s.graph.itemOf m = i) (hne : ∃ i, i ∈ items) :
    ∃ attributes, (resolve false e members s).2 = { (intersectionOf items s).2 with
      graph := (intersectionOf items s).2.graph.modify e
        ({ · with kind := .array (intersectionOf items s).1, attributes, fixed := false }) } := by
  have hadmitted : members.map (s.graph.admitted false) =
      (members.map s.graph.itemOf).map fun i => some (arraysOf [i]) := by
    rw [List.map_map]
    exact List.map_congr_left fun m hm => admitted_array (hk m hm)
  obtain ⟨a, ha⟩ := hne
  have hne : members.map s.graph.itemOf ≠ [] := by
    obtain ⟨m, hm, -⟩ := (hitems a).1 ha
    exact List.ne_nil_of_mem (List.mem_map_of_mem hm)
  obtain ⟨all, hall, hmeet⟩ := meetAll_arrays hne
  have hset : SortedSet.ofList all = items := by
    ext i
    rw [SortedSet.mem_ofList, hall, hitems, List.mem_map]
  have hempty : (all.map SortedSet.singleton).isEmpty = false := by
    rw [List.isEmpty_eq_false_iff, Ne, List.map_eq_nil_iff]
    exact List.ne_nil_of_mem ((SortedSet.mem_ofList.1 (hset ▸ ha)))
  have hpart : arrayPart (all.map .singleton) s =
      (.new (.array (intersectionOf items s).1), (intersectionOf items s).2) := by
    rw [arrayPart_apply, hempty, if_neg Bool.false_ne_true, mapM_unionOf_singleton]
    dsimp only
    rw [hset]
  refine ⟨s.graph.metAttributes e members, (resolve_apply false e members s).trans ?_⟩
  rw [hadmitted, hmeet]
  simp only [parts_arrays, hpart]
  rfl

/-- Where the items are not all the same and no node stands for them, a new intersection is made. -/
theorem resolve_arrays_new {e : NodeId} {members : List NodeId} {items : SortedSet NodeId}
    (hk : ∀ m ∈ members, s.graph.kind m = .array (s.graph.itemOf m))
    (hitems : ∀ i, i ∈ items ↔ ∃ m ∈ members, s.graph.itemOf m = i) (hne : ∃ i, i ∈ items)
    (hsize : items.size ≠ 1) (hmemo : s.intersections.get? items = none) :
    ∃ attributes, (resolve false e members s).2 = { s with
      graph := s.graph.unrolled e items attributes
      intersections := s.intersections.insert items s.graph.size } := by
  obtain ⟨attributes, he⟩ := resolve_arrays (e := e) hk hitems hne
  rw [intersectionOf_new hsize hmemo] at he
  exact ⟨attributes, he⟩

/-- The last of the rounds is one round more. -/
theorem rounds_succ (n : Nat) (s : Resolution) : rounds (n + 1) s = rounds 1 (rounds n s) := by
  induction n generalizing s with
  | zero => rfl
  | succ n ih =>
    rw [rounds, rounds.eq_2 s n]
    split
    · next h => simp only [rounds, h]
    · exact ih _

end Resolution

/-! ## An intersection that leads to itself -/

/-- Top levels lead to what they led to, or to the one node that changes. -/
theorem Graph.reached_of_kind_eq {g h : Graph} {e : NodeId} (ht : h.topLevels = g.topLevels)
    (hk : ∀ r < g.size, r ≠ e → h.kind r = g.kind r) {r : NodeId} (hr : g.Reached r) :
    h.Reached r ∨ h.Reached e := by
  induction hr with
  | topLevel hr =>
    rw [topLevel?, ← ht] at hr
    exact .inl (.topLevel hr)
  | @child r c _ hc ih =>
    refine ih.elim (fun ih => ?_) .inr
    by_cases hre : r = e
    · exact .inr (hre ▸ ih)
    · have hlt : r < g.size := lt_size_of_kind_ne fun hn => by
        rw [hn] at hc
        cases hc
      exact .inl (.child ih (by rwa [hk r hlt hre]))

/-- An intersection `e` of arrays, the only one of the graph: of arrays of what the intersection
    stands for, and of arrays of arrays without end, `loops`. -/
structure Graph.Strand (loops : NodeId → Prop) (g : Graph) (e : NodeId) (ms : SortedSet NodeId) :
    Prop where
  reached : g.Reached e
  kind_eq : g.kind e = .intersection ms
  only : ∀ r, (g.kind r).isIntersection = true → r = e
  nonempty : ∃ m, m ∈ ms
  members : ∀ m ∈ ms, g.kind m = .array e ∨ loops m
  arrays : ∀ r, loops r → ∃ items, g.kind r = .array items ∧ loops items

namespace Graph.Strand

variable {loops : NodeId → Prop} {g : Graph} {e : NodeId} {ms : SortedSet NodeId}
  (H : g.Strand loops e ms)

include H

theorem isIntersection : (g.kind e).isIntersection = true := by
  rw [H.kind_eq]
  rfl

theorem not_loops : ¬loops e := fun h => by
  obtain ⟨items, hitems, -⟩ := H.arrays e h
  cases H.kind_eq.symm.trans hitems

theorem kind_of_loops {m : NodeId} (hm : loops m) :
    g.kind m = .array (g.itemOf m) ∧ loops (g.itemOf m) := by
  obtain ⟨items, hitems, hloops⟩ := H.arrays m hm
  rw [itemOf_eq hitems]
  exact ⟨hitems, hloops⟩

theorem kind_mem {m : NodeId} (hm : m ∈ ms) : g.kind m = .array (g.itemOf m) := by
  rcases H.members m hm with hk | hloops
  · rw [itemOf_eq hk, hk]
  · exact (H.kind_of_loops hloops).1

theorem expandedMembers_eq : g.expandedMembers e = ms.toList :=
  expandedMembers_of_leaves H.kind_eq fun m hm => by
    have hk := H.kind_mem hm
    exact ⟨lt_size_of_array hk, by rw [hk]; rfl⟩

theorem reachableIntersections_eq (hg : g.WellFormed) : g.reachableIntersections = [e] := by
  have hset : SortedSet.ofList (g.reachable.filter fun r => (g.kind r).isIntersection) =
      .singleton e := by
    ext r
    rw [SortedSet.mem_ofList, List.mem_filter, SortedSet.mem_singleton]
    refine ⟨fun h => H.only r h.2, ?_⟩
    rintro rfl
    exact ⟨H.reached.mem_reachable hg, H.isIntersection⟩
  exact congrArg SortedSet.toList hset

theorem lt_size {m : NodeId} (hm : m ∈ ms) : m < g.size := lt_size_of_array (H.kind_mem hm)

theorem itemOf_lt (hg : g.WellFormed) : ∀ i ∈ ms.map g.itemOf, i < g.size := fun i hi => by
  obtain ⟨m, hm, rfl⟩ := SortedSet.mem_map.1 hi
  refine hg.lt_of_mem_children (r := m) ?_
  rw [H.kind_mem hm]
  exact List.mem_singleton_self _

/-- The items of the members: the intersection, or items that go on without it. -/
theorem items {i : NodeId} (hi : i ∈ ms.map g.itemOf) : i = e ∨ loops i := by
  obtain ⟨m, hm, rfl⟩ := SortedSet.mem_map.1 hi
  exact (H.members m hm).imp itemOf_eq fun h => (H.kind_of_loops h).2

/-- **The next intersection is of the same form**: it is the items of the intersection, which has
    become an array. -/
theorem unrolled (attributes : Attributes) :
    (g.unrolled e (ms.map g.itemOf) attributes).Strand loops g.size (ms.map g.itemOf) := by
  have he : e < g.size := lt_size_of_isIntersection H.isIntersection
  have hk : ∀ r, (g.unrolled e (ms.map g.itemOf) attributes).kind r = if e = r then .array g.size
      else if r = g.size then .intersection (ms.map g.itemOf) else g.kind r :=
    kind_unrolled attributes he
  have hend : (g.unrolled e (ms.map g.itemOf) attributes).kind e = .array g.size := by
    rw [hk, if_pos rfl]
  constructor
  · have hreached := reached_of_kind_eq (g := g)
      (h := g.unrolled e (ms.map g.itemOf) attributes) rfl
      (fun r hr hre => by rw [hk, if_neg (Ne.symm hre), if_neg (Nat.ne_of_lt hr)]) H.reached
    refine .child (hreached.elim id id) ?_
    rw [hend]
    exact List.mem_singleton_self _
  · rw [hk, if_neg (Nat.ne_of_lt he), if_pos rfl]
  · intro r hr
    rw [hk] at hr
    split at hr
    · cases hr
    · next hre =>
      split at hr
      · assumption
      · exact absurd (H.only r hr).symm hre
  · obtain ⟨m, hm⟩ := H.nonempty
    exact ⟨_, SortedSet.mem_map.2 ⟨m, hm, rfl⟩⟩
  · intro i hi
    refine (H.items hi).imp_left ?_
    rintro rfl
    exact hend
  · intro r hr
    obtain ⟨hitems, hloops⟩ := H.kind_of_loops hr
    have hre : e ≠ r := by
      rintro rfl
      exact H.not_loops hr
    exact ⟨_, by rw [hk, if_neg hre, if_neg (Nat.ne_of_lt (lt_size_of_array hitems)), hitems],
      hloops⟩

end Graph.Strand

namespace Resolution

variable {loops : NodeId → Prop} {s : Resolution} {e : NodeId} {ms : SortedSet NodeId}

/-- A node may come to stand for its members. -/
theorem register_apply (s : Resolution) (r : NodeId) (set : SortedSet NodeId) :
    s.register (r, set.toList) = if s.intersections.contains set then s else
      { s with intersections := s.intersections.insert set r } := by
  have hset : SortedSet.ofList set.toList = set := by
    ext i
    rw [SortedSet.mem_ofList, SortedSet.mem_toList]
  simp only [register, hset]

/-- A round resolves the intersection. -/
theorem round_of_strand (H : s.graph.Strand loops e ms) :
    s.round [e] = (resolve false e ms.toList (s.register (e, ms.toList))).2 := by
  have hready : ms.toList.any s.graph.awaitsIntersection = false := by
    rw [List.any_eq_false]
    intro m hm
    rw [awaitsIntersection_array (H.kind_mem hm)]
    exact Bool.false_ne_true
  simp [Resolution.round, H.expandedMembers_eq, hready]
  rfl

end Resolution

/-- One such array is of what the intersection stands for, another goes on without it. -/
structure Graph.Winding (loops : NodeId → Prop) (g : Graph) (e : NodeId) (ms : SortedSet NodeId) :
    Prop extends g.Strand loops e ms where
  back : ∃ m ∈ ms, g.kind m = .array e
  other : ∃ m ∈ ms, loops m

namespace Resolution

variable {loops : NodeId → Prop} {s : Resolution} {e : NodeId} {ms : SortedSet NodeId}

/-- Resolution has come to a graph with such an intersection, which is in no set that a node
    stands for. -/
structure Coil (loops : NodeId → Prop) (s : Resolution) (e : NodeId) (ms : SortedSet NodeId) :
    Prop extends s.graph.Winding loops e ms where
  wellFormed : s.graph.WellFormed
  keys_lt : ∀ set r, s.intersections.get? set = some r → ∀ m ∈ set, m < s.graph.size
  not_mem_keys : ∀ set r, s.intersections.get? set = some r → e ∉ set

theorem Coil.register (H : Coil loops s e ms) : Coil loops (s.register (e, ms.toList)) e ms := by
  rw [register_apply]
  split
  · exact H
  refine { H with keys_lt := fun set r hr m hm => ?_, not_mem_keys := fun set r hr he => ?_ }
  · rw [OrderedMap.get?_insert] at hr
    split at hr
    · next hset => exact H.lt_size (hset ▸ hm)
    · exact H.keys_lt set r hr m hm
  · rw [OrderedMap.get?_insert] at hr
    split at hr
    · next hset =>
      have hk := H.kind_mem (hset ▸ he)
      cases H.kind_eq.symm.trans hk
    · exact H.not_mem_keys set r hr he

/-- **Resolving the intersection makes another of its form.** -/
theorem Coil.resolve (H : Coil loops s e ms) :
    Coil loops (resolve false e ms.toList s).2 s.graph.size (ms.map s.graph.itemOf) := by
  obtain ⟨p, hp, hback⟩ := H.back
  obtain ⟨z, hz, hloops⟩ := H.other
  have hloops := (H.kind_of_loops hloops).2
  have hmem : e ∈ ms.map s.graph.itemOf := SortedSet.mem_map.2 ⟨p, hp, itemOf_eq hback⟩
  have hother : s.graph.itemOf z ∈ ms.map s.graph.itemOf := SortedSet.mem_map.2 ⟨z, hz, rfl⟩
  have hlt := H.itemOf_lt H.wellFormed
  -- no node stands for the items yet, since the intersection is among them
  have hmemo : s.intersections.get? (ms.map s.graph.itemOf) = none :=
    Option.eq_none_iff_forall_ne_some.2 fun r hr => H.not_mem_keys _ r hr hmem
  have hkeys : ∀ set r, (s.intersections.insert (ms.map s.graph.itemOf) s.graph.size).get? set =
      some r → ∀ m ∈ set, m < s.graph.size := fun set r hr m hm => by
    rw [OrderedMap.get?_insert] at hr
    split at hr
    · next hset => exact hlt m (hset ▸ hm)
    · exact H.keys_lt set r hr m hm
  obtain ⟨attributes, heq⟩ := resolve_arrays_new (e := e) (fun m hm => H.kind_mem hm)
    (fun i => SortedSet.mem_map) ⟨e, hmem⟩
    (SortedSet.size_ne_one hmem hother fun he => H.not_loops (he ▸ hloops)) hmemo
  rw [heq]
  refine ⟨⟨H.unrolled attributes, ⟨e, hmem, ?_⟩, _, hother, hloops⟩,
    wellFormed_unrolled attributes H.wellFormed hlt, fun set r hr m hm => ?_,
    fun set r hr hn => Nat.lt_irrefl _ (hkeys set r hr _ hn)⟩
  · exact (kind_unrolled attributes (lt_size_of_isIntersection H.isIntersection) e).trans (if_pos rfl)
  · rw [size_unrolled]
    exact Nat.lt_succ_of_lt (hkeys set r hr m hm)

theorem Coil.round (H : Coil loops s e ms) : ∃ e' ms', Coil loops (s.round [e]) e' ms' := by
  rw [round_of_strand H.toStrand]
  exact ⟨_, _, H.register.resolve⟩

/-- **Resolution does not come to an end**, however many rounds there are. -/
theorem coil_rounds {g : Graph} (hg : g.WellFormed) (H : g.Winding loops e ms) (n : Nat) :
    ∃ e' ms', Coil loops (rounds n (.ofGraph g)) e' ms' := by
  induction n with
  | zero => exact ⟨e, ms, ⟨H, hg, fun _ _ hr => (nomatch hr), fun _ _ hr => (nomatch hr)⟩⟩
  | succ n ih =>
    obtain ⟨e', ms', H'⟩ := ih
    rw [rounds_succ, rounds, H'.reachableIntersections_eq H'.wellFormed]
    exact H'.round

end Resolution

namespace Graph

variable {loops : NodeId → Prop} {g : Graph} {e : NodeId} {ms : SortedSet NodeId}

/-- **Resolution unfolds without end** an intersection of an array of what the intersection stands
    for and of arrays of arrays without end: whatever the number of rounds, one intersection is
    left. -/
theorem reachableIntersections_of_winding (hg : g.WellFormed) (H : g.Winding loops e ms) (n : Nat) :
    ∃ r, (Resolution.rounds n (.ofGraph g)).graph.reachableIntersections = [r] := by
  obtain ⟨e', ms', C⟩ := Resolution.coil_rounds hg H n
  exact ⟨e', C.reachableIntersections_eq C.wellFormed⟩

theorem not_done_of_winding (hg : g.WellFormed) (H : g.Winding loops e ms) :
    g.resolveIntersections.2 = false := by
  rw [← Bool.not_eq_true]
  intro hdone
  obtain ⟨e', ms', C⟩ := Resolution.coil_rounds hg H Resolution.roundLimit
  have hi := isIntersection_of_collect hdone (C.reached.mem_reachable C.wellFormed)
  rw [C.isIntersection] at hi
  cases hi

/-- Lists of such lists that are lists of lists without end. -/
def windingLists : Graph where
  nodes := #[.new (.array 2), .new (.array 1), .new (.intersection (.ofList [0, 1]))]
  topLevels := .ofList [("Lists", 2)]

theorem winding_windingLists : windingLists.Winding (· = 1) 2 (.ofList [0, 1]) where
  reached := .topLevel (show windingLists.topLevel? "Lists" = some 2 from rfl)
  kind_eq := rfl
  only r hr := by
    have hsmall : ∀ r < 3, (windingLists.kind r).isIntersection = true → r = 2 := by decide
    exact hsmall r (lt_size_of_isIntersection hr) hr
  nonempty := ⟨0, by decide⟩
  members := by decide
  arrays r hr := ⟨1, by rw [hr]; rfl, rfl⟩
  back := ⟨0, by decide, rfl⟩
  other := ⟨1, by decide, rfl⟩

/-- Resolution need not close on recursive types. -/
theorem not_forall_resolved : ¬∀ g : Graph, g.WellFormed → g.resolveIntersections.2 = true := by
  intro h
  have hg : windingLists.WellFormed := ⟨by decide, by decide⟩
  have hdone := h windingLists hg
  rw [not_done_of_winding hg winding_windingLists] at hdone
  cases hdone

end Graph

end SchemaTypes
