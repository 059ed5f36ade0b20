/-
  Intersections of arrays that close.

  Resolving an intersection of arrays asks for the intersection of their items, then for that of
  the items of these, and so on.  A node keeps standing for the members that it was made for:

  * `itemSets`: the sets of members that are asked for, one after the other;
  * `ClosesAt`: the next set has one member alone, or was asked for before;
  * `Turning`: what resolution has come to before that (`Turning.round`, `Turning.round_closed`);
  * `closed_iff`, `done_iff`: so resolution closes then, and not before;
  * `exists_closesAt`: the graph has finitely many sets of nodes, so that this comes;
  * `resolution_of_strand`: where resolution closes, and where it goes on without end.
-/
import Mathlib.Data.Fintype.Pigeonhole
import Mathlib.Data.Fintype.Powerset
import SchemaTypes.Proofs.KindClasses
import SchemaTypes.Proofs.Winding

namespace SchemaTypes

namespace Graph

variable {loops : NodeId → Prop} {g : Graph} {e : NodeId} {ms : SortedSet NodeId} {k : Nat}

/-! ## Items of items -/

/-- The items of some arrays, their items, and so on. -/
def itemSets (g : Graph) (ms : SortedSet NodeId) (k : Nat) : SortedSet NodeId :=
  (fun set => set.map g.itemOf)^[k] ms

theorem itemSets_succ (g : Graph) (ms : SortedSet NodeId) (k : Nat) :
    g.itemSets ms (k + 1) = (g.itemSets ms k).map g.itemOf :=
  Function.iterate_succ_apply' _ k ms

/-- All arrays have the same items, or were seen before. -/
def ClosesAt (g : Graph) (ms : SortedSet NodeId) (k : Nat) : Prop :=
  (g.itemSets ms (k + 1)).size = 1 ∨ ∃ i ≤ k, g.itemSets ms i = g.itemSets ms (k + 1)

theorem lt_of_mem_itemSets (hg : g.WellFormed) (hms : ∀ m ∈ ms, m < g.size) {m : NodeId}
    (hm : m ∈ g.itemSets ms k) : m < g.size := by
  induction k generalizing m with
  | zero => exact hms m hm
  | succ k ih =>
    rw [itemSets_succ] at hm
    obtain ⟨n, hn, rfl⟩ := SortedSet.mem_map.1 hm
    unfold itemOf
    split
    · next items hk =>
      refine hg.lt_of_mem_children (r := n) ?_
      rw [hk]
      exact List.mem_singleton_self items
    · exact ih hn

/-- **Items of items come back**, as there are finitely many sets of them. -/
theorem exists_closesAt (hg : g.WellFormed) (hms : ∀ m ∈ ms, m < g.size) :
    ∃ k, g.ClosesAt ms k := by
  have hsets : ∀ {i j}, (Finset.univ.filter fun r : Fin g.size => r.val ∈ g.itemSets ms i) =
      (Finset.univ.filter fun r : Fin g.size => r.val ∈ g.itemSets ms j) →
        g.itemSets ms i = g.itemSets ms j := fun {i j} h => by
    ext r
    by_cases hr : r < g.size
    · simpa using Finset.ext_iff.1 h ⟨r, hr⟩
    · exact iff_of_false (fun hm => hr (lt_of_mem_itemSets hg hms hm))
        fun hm => hr (lt_of_mem_itemSets hg hms hm)
  obtain ⟨i, j, hne, heq⟩ := Finite.exists_ne_map_eq_of_infinite fun k =>
    Finset.univ.filter fun r : Fin g.size => r.val ∈ g.itemSets ms k
  rcases Nat.lt_or_gt_of_ne hne with hij | hji
  · obtain ⟨k, rfl⟩ := Nat.exists_eq_add_of_lt hij
    exact ⟨i + k, .inr ⟨i, Nat.le_add_right i k, hsets heq⟩⟩
  · obtain ⟨k, rfl⟩ := Nat.exists_eq_add_of_lt hji
    exact ⟨j + k, .inr ⟨j, Nat.le_add_right j k, hsets heq.symm⟩⟩

namespace Strand

variable (H : g.Strand loops e ms)

include H

theorem loops_itemSets (hall : ∀ m ∈ ms, loops m) (k : Nat) : ∀ m ∈ g.itemSets ms k, loops m := by
  induction k with
  | zero => exact hall
  | succ k ih =>
    intro m hm
    rw [itemSets_succ] at hm
    obtain ⟨n, hn, rfl⟩ := SortedSet.mem_map.1 hm
    exact (H.kind_of_loops (ih n hn)).2

/-- Where arrays are of one sort, they are arrays of arrays without end, or all of the same
    items. -/
theorem loops_of_not_winding (hnot : ¬g.Winding loops e ms) (hopen : ¬g.ClosesAt ms 0) :
    ∀ m ∈ ms, loops m := by
  intro p hp
  by_contra hloops
  have hback := (H.members p hp).resolve_right hloops
  have hall : ∀ m ∈ ms, g.itemOf m = e := fun m hm => itemOf_eq <|
    (H.members m hm).resolve_right fun hm' => hnot ⟨H, ⟨p, hp, hback⟩, ⟨m, hm, hm'⟩⟩
  refine hopen (.inl ?_)
  have hone : ms.map g.itemOf = .singleton e := by
    ext i
    rw [SortedSet.mem_map, SortedSet.mem_singleton]
    refine ⟨?_, fun hi => ⟨p, hp, by rw [hi]; exact hall p hp⟩⟩
    rintro ⟨m, hm, rfl⟩
    exact hall m hm
  rw [itemSets_succ]
  exact congrArg SortedSet.size hone

end Strand

end Graph

namespace Resolution

open SchemaTypes.Graph

variable {loops : NodeId → Prop} {g : Graph} {s : Resolution} {e : NodeId}
  {ms set : SortedSet NodeId} {k : Nat}

/-! ## One round -/

theorem graph_register (s : Resolution) (r : NodeId) (set : SortedSet NodeId) :
    (s.register (r, set.toList)).graph = s.graph := by
  rw [register_apply]
  split <;> rfl

theorem contains_register {r : NodeId} {set' : SortedSet NodeId} :
    (s.register (r, set.toList)).intersections.contains set' = true ↔
      s.intersections.contains set' = true ∨ set' = set := by
  rw [register_apply]
  split
  · next h =>
    refine ⟨.inl, ?_⟩
    rintro (h' | rfl)
    · exact h'
    · exact h
  · exact OrderedMap.contains_insert

/-- Where the items are all the same, or a node stands for them, no intersection is left. -/
theorem round_known (H : s.graph.Strand loops e ms) (h : (ms.map s.graph.itemOf).size = 1 ∨
      (s.register (e, ms.toList)).intersections.contains (ms.map s.graph.itemOf) = true) :
    (s.round [e]).graph.Every (·.isIntersection = false) := by
  have hgraph := graph_register s e ms
  rw [round_of_strand H]
  generalize s.register (e, ms.toList) = s' at h hgraph
  rw [← hgraph] at h
  obtain ⟨m, hm⟩ := H.nonempty
  obtain ⟨attributes, heq⟩ := resolve_arrays (s := s') (e := e)
    (fun m hm => hgraph ▸ H.kind_mem hm) (fun i => SortedSet.mem_map)
    ⟨_, SortedSet.mem_map.2 ⟨m, hm, rfl⟩⟩
  rw [heq, intersectionOf_known h]
  intro r hr
  dsimp only at hr ⊢
  rw [size_modify] at hr
  rw [kind_modify _ _ _ _ hr, ← Bool.not_eq_true]
  split
  · exact Bool.false_ne_true
  · next hre => exact fun hi => hre (H.only r (hgraph ▸ hi)).symm

/-- Otherwise the intersection of the items is asked for. -/
theorem round_new (H : s.graph.Strand loops e ms) (hsize : (ms.map s.graph.itemOf).size ≠ 1)
    (hmemo : (s.register (e, ms.toList)).intersections.contains (ms.map s.graph.itemOf) = false) :
    ∃ attributes, (s.round [e]).graph = s.graph.unrolled e (ms.map s.graph.itemOf) attributes ∧
      (s.round [e]).intersections = (s.register (e, ms.toList)).intersections.insert
        (ms.map s.graph.itemOf) s.graph.size := by
  have hgraph := graph_register s e ms
  rw [round_of_strand H]
  generalize s.register (e, ms.toList) = s' at hmemo hgraph ⊢
  rw [← hgraph] at hsize hmemo ⊢
  obtain ⟨m, hm⟩ := H.nonempty
  obtain ⟨attributes, heq⟩ := resolve_arrays_new (e := e) (fun m hm => hgraph ▸ H.kind_mem hm)
    (fun i => SortedSet.mem_map) ⟨_, SortedSet.mem_map.2 ⟨m, hm, rfl⟩⟩ hsize
    (Option.not_isSome_iff_eq_none.1 (Bool.eq_false_iff.1 hmemo))
  exact ⟨attributes, by rw [heq], by rw [heq]⟩

/-! ## One round after the other -/

/-- Resolution has come to the `k`-th set of items, and nodes stand for those before. -/
structure Turning (loops : NodeId → Prop) (g : Graph) (ms : SortedSet NodeId) (k : Nat)
    (s : Resolution) (e : NodeId) : Prop extends s.graph.Strand loops e (g.itemSets ms k) where
  wellFormed : s.graph.WellFormed
  items : ∀ m ∈ g.itemSets ms k, s.graph.itemOf m = g.itemOf m
  stay : ∀ m, loops m → s.graph.kind m = g.kind m
  known_iff : ∀ set, s.intersections.contains set = true ∨ set = g.itemSets ms k ↔
    ∃ i ≤ k, g.itemSets ms i = set

theorem turning_start (hg : g.WellFormed) (H : g.Strand loops e ms) :
    Turning loops g ms 0 (.ofGraph g) e where
  toStrand := H
  wellFormed := hg
  items _ _ := rfl
  stay _ _ := rfl
  known_iff set := by
    refine ⟨fun h => ⟨0, Nat.le_refl 0, ?_⟩, ?_⟩
    · exact (h.resolve_left Bool.noConfusion).symm
    · rintro ⟨i, hi, rfl⟩
      exact .inr (congrArg _ (Nat.le_zero.1 hi))

namespace Turning

variable (H : Turning loops g ms k s e)

include H

theorem map_itemOf : (g.itemSets ms k).map s.graph.itemOf = g.itemSets ms (k + 1) := by
  rw [itemSets_succ]
  ext i
  simp only [SortedSet.mem_map]
  exact exists_congr fun m => and_congr_right fun hm => by rw [H.items m hm]

theorem contains_iff :
    (s.register (e, (g.itemSets ms k).toList)).intersections.contains set = true ↔
      ∃ i ≤ k, g.itemSets ms i = set :=
  contains_register.trans (H.known_iff set)

theorem round_closed (h : g.ClosesAt ms k) :
    (s.round [e]).graph.Every (·.isIntersection = false) := by
  refine round_known H.toStrand ?_
  rwa [H.map_itemOf, H.contains_iff]

/-- **A round asks for the next set.** -/
theorem round (hopen : ¬g.ClosesAt ms k) (hloops : ∀ m ∈ g.itemSets ms (k + 1), loops m) :
    Turning loops g ms (k + 1) (s.round [e]) s.graph.size := by
  obtain ⟨hsize, hnew⟩ := not_or.1 hopen
  rw [← H.contains_iff, Bool.not_eq_true] at hnew
  rw [← H.map_itemOf] at hsize hnew
  obtain ⟨attributes, hgraph, hknown⟩ := round_new H.toStrand hsize hnew
  have hstay : ∀ m, loops m → (s.round [e]).graph.kind m = g.kind m := fun m hm => by
    have hlt := lt_size_of_array (H.kind_of_loops hm).1
    have hne : e ≠ m := by
      rintro rfl
      exact H.not_loops hm
    rw [hgraph, kind_unrolled _ (lt_size_of_isIntersection H.isIntersection), if_neg hne,
      if_neg (Nat.ne_of_lt hlt), H.stay m hm]
  refine ⟨?_, ?_, fun m hm => ?_, hstay, fun set => ?_⟩
  · rw [hgraph, ← H.map_itemOf]
    exact H.unrolled attributes
  · rw [hgraph]
    exact wellFormed_unrolled attributes H.wellFormed (H.itemOf_lt H.wellFormed)
  · unfold itemOf
    rw [hstay m (hloops m hm)]
  · rw [hknown, OrderedMap.contains_insert, H.contains_iff, H.map_itemOf, or_assoc, or_self]
    refine ⟨?_, ?_⟩
    · rintro (⟨i, hi, hset⟩ | hset)
      · exact ⟨i, Nat.le_succ_of_le hi, hset⟩
      · exact ⟨k + 1, Nat.le_refl _, hset.symm⟩
    · rintro ⟨i, hi, hset⟩
      rcases Nat.le_succ_iff.1 hi with hi | rfl
      · exact .inl ⟨i, hi, hset⟩
      · exact .inr hset.symm

end Turning

/-- **Resolution comes to the next set in each round, until it closes.** -/
theorem rounds_of_strand (hg : g.WellFormed) (H : g.Strand loops e ms)
    (hnot : ¬g.Winding loops e ms) (n : Nat) :
    (∃ k < n, g.ClosesAt ms k) ∧
        (rounds n (.ofGraph g)).graph.Every (·.isIntersection = false) ∨
      (∀ k < n, ¬g.ClosesAt ms k) ∧ ∃ e', Turning loops g ms n (rounds n (.ofGraph g)) e' := by
  induction n with
  | zero => exact .inr ⟨fun _ hk => absurd hk (Nat.not_lt_zero _), e, turning_start hg H⟩
  | succ n ih =>
    rw [rounds_succ]
    rcases ih with ⟨⟨k, hk, hcloses⟩, hevery⟩ | ⟨hopen, e', T⟩
    · rw [rounds_of_nil (reachableIntersections_eq_nil hevery)]
      exact .inl ⟨⟨k, Nat.lt_succ_of_lt hk, hcloses⟩, hevery⟩
    rw [rounds, T.reachableIntersections_eq T.wellFormed]
    by_cases hcloses : g.ClosesAt ms n
    · exact .inl ⟨⟨n, Nat.lt_succ_self n, hcloses⟩, T.round_closed hcloses⟩
    · have hopen : ∀ k < n + 1, ¬g.ClosesAt ms k := fun k hk => by
        rcases Nat.lt_succ_iff_lt_or_eq.1 hk with hk | rfl
        · exact hopen k hk
        · exact hcloses
      have hall := H.loops_of_not_winding hnot (hopen 0 (Nat.succ_pos n))
      exact .inr ⟨hopen, _, T.round hcloses (H.loops_itemSets hall (n + 1))⟩

end Resolution

namespace Graph

variable {loops : NodeId → Prop} {g : Graph} {e : NodeId} {ms : SortedSet NodeId}

/-! ## Any number of rounds -/

/-- **Resolution closes when a set of items comes back**, and not before. -/
theorem closed_iff (hg : g.WellFormed) (H : g.Strand loops e ms) (hnot : ¬g.Winding loops e ms)
    (n : Nat) : (Resolution.rounds n (.ofGraph g)).graph.reachableIntersections = [] ↔
      ∃ k < n, g.ClosesAt ms k := by
  rcases Resolution.rounds_of_strand hg H hnot n with ⟨hcloses, hevery⟩ | ⟨hopen, e', T⟩
  · exact iff_of_true (Resolution.reachableIntersections_eq_nil hevery) hcloses
  · refine iff_of_false ?_ fun ⟨k, hk, hcloses⟩ => hopen k hk hcloses
    rw [T.reachableIntersections_eq T.wellFormed]
    exact List.cons_ne_nil _ _

theorem done_iff (hg : g.WellFormed) (H : g.Strand loops e ms) (hnot : ¬g.Winding loops e ms) :
    g.resolveIntersections.2 = true ↔ ∃ k < Resolution.roundLimit, g.ClosesAt ms k := by
  rcases Resolution.rounds_of_strand hg H hnot Resolution.roundLimit with
    ⟨hcloses, hevery⟩ | ⟨hopen, e', T⟩
  · exact iff_of_true (isEmpty_idsWhere (hevery.collect Kind.isIntersection_renamable)) hcloses
  · refine iff_of_false (fun hdone => ?_) fun ⟨k, hk, hcloses⟩ => hopen k hk hcloses
    have hi := isIntersection_of_collect hdone (T.reached.mem_reachable T.wellFormed)
    rw [T.isIntersection] at hi
    cases hi

/-- **Where resolution closes on arrays without end, and where it does not.**  If the intersection
    is of an array of what it stands for and of arrays that go on without it, it is unfolded
    without end: no number of rounds is enough.  If it is of arrays of one sort alone, resolution
    closes with enough rounds, since a node keeps standing for its members; the rounds of one
    application are enough just if the items close by then. -/
theorem resolution_of_strand (hg : g.WellFormed) (H : g.Strand loops e ms) :
    (g.Winding loops e ms →
      (∀ n, (Resolution.rounds n (.ofGraph g)).graph.reachableIntersections ≠ []) ∧
      g.resolveIntersections.2 = false) ∧
    (¬g.Winding loops e ms →
      (∃ n, ∀ n' ≥ n, (Resolution.rounds n' (.ofGraph g)).graph.reachableIntersections = []) ∧
      (g.resolveIntersections.2 = true ↔ ∃ k < Resolution.roundLimit, g.ClosesAt ms k)) := by
  refine ⟨fun W => ⟨fun n => ?_, not_done_of_winding hg W⟩, fun hnot => ⟨?_, done_iff hg H hnot⟩⟩
  · obtain ⟨r, hr⟩ := reachableIntersections_of_winding hg W n
    rw [hr]
    exact List.cons_ne_nil _ _
  · obtain ⟨k, hk⟩ := exists_closesAt hg fun m hm => H.lt_size hm
    exact ⟨k + 1, fun n hn => (closed_iff hg H hnot n).2 ⟨k, hn, hk⟩⟩

/-- Lists without end, of two levels and of three in turn. -/
def turningLists : Graph where
  nodes := #[.new (.array 1), .new (.array 0), .new (.array 3), .new (.array 4), .new (.array 2),
    .new (.intersection (.ofList [0, 2]))]
  topLevels := .ofList [("Lists", 5)]

theorem strand_turningLists : turningLists.Strand (· < 5) 5 (.ofList [0, 2]) where
  reached := .topLevel (show turningLists.topLevel? "Lists" = some 5 from rfl)
  kind_eq := rfl
  only r hr := by
    have hsmall : ∀ r < 6, (turningLists.kind r).isIntersection = true → r = 5 := by decide
    exact hsmall r (lt_size_of_isIntersection hr) hr
  nonempty := ⟨0, by decide⟩
  members m hm := by
    have hsmall : ∀ m ∈ SortedSet.ofList [0, 2], m < 5 := by decide
    exact .inr (hsmall m hm)
  arrays r hr := by
    have hsmall : ∀ r < 5, turningLists.kind r = .array (turningLists.itemOf r) ∧
        turningLists.itemOf r < 5 := by decide
    exact ⟨_, hsmall r hr⟩

/-- Lists of such lists that are lists of lists without end are unfolded; lists that are of two
    levels and of three in turn close after six rounds. -/
theorem resolution_of_lists :
    (windingLists.WellFormed ∧ windingLists.Winding (· = 1) 2 (.ofList [0, 1]) ∧
      windingLists.resolveIntersections.2 = false) ∧
    turningLists.WellFormed ∧ turningLists.Strand (· < 5) 5 (.ofList [0, 2]) ∧
      ¬turningLists.Winding (· < 5) 5 (.ofList [0, 2]) ∧
      turningLists.resolveIntersections.2 = true := by
  have hg : windingLists.WellFormed := ⟨by decide, by decide⟩
  have hg' : turningLists.WellFormed := ⟨by decide, by decide⟩
  have hnot : ¬turningLists.Winding (· < 5) 5 (.ofList [0, 2]) := fun W => by
    have hback : ∀ m ∈ SortedSet.ofList [0, 2], turningLists.kind m ≠ .array 5 := by decide
    obtain ⟨m, hm, hk⟩ := W.back
    exact hback m hm hk
  have hcloses : turningLists.ClosesAt (.ofList [0, 2]) 5 := .inr ⟨0, by decide, by decide⟩
  exact ⟨⟨hg, winding_windingLists,
      ((resolution_of_strand hg winding_windingLists.toStrand).1 winding_windingLists).2⟩,
    hg', strand_turningLists, hnot,
    ((resolution_of_strand hg' strand_turningLists).2 hnot).2.2 ⟨5, by decide, hcloses⟩⟩

end Graph

end SchemaTypes
