/-
  Resolving intersections loses no values.

  * `resolution_keeps_values`: what a top level admits is admitted after resolution, unless
    intersections that are nested in themselves are left;
  * `Spiral`: a graph where such an intersection is left after any number of rounds, so that
    `resolution_loses_values`.
-/
import SchemaTypes.Proofs.Winding

namespace SchemaTypes

open SchemaTypes.Graph

variable {ρ : Reading}

/-! ## The pass -/

namespace Graph

variable {g : Graph} {r : NodeId}

/-- A node that intersections nest in one of its own members. -/
def SelfNested (g : Graph) (r : NodeId) : Prop :=
  ∃ c ∈ (g.kind r).intersectionMembers, r ∈ g.nested c

/-- Where nothing is nested in itself, members nest less than the intersection. -/
theorem length_nested_lt (hg : g.WellFormed) {c : NodeId} (hr : ¬g.SelfNested r)
    (hc : c ∈ (g.kind r).intersectionMembers) : (g.nested c).length < (g.nested r).length := by
  have hself := self_mem_nested (lt_size_of_isIntersection (Kind.isIntersection_of_mem hc))
  have hnodup : (r :: g.nested c).Nodup :=
    List.nodup_cons.2 ⟨fun h => hr ⟨c, hc, h⟩, nodup_walk⟩
  refine hnodup.length_le_of_subset fun x hx => ?_
  rcases List.mem_cons.1 hx with rfl | hx
  · exact hself
  · exact nested_trans hg (mem_nested_of_mem hg hself hc) hx

end Graph

namespace Resolution

variable {g₀ o : Graph} {s : Resolution}

/-- Nesting ends where nothing was nested in itself to begin with: new intersections have
    members that were there before them. -/
theorem Faithful.acc (hg₀ : g₀.WellFormed) (H : Faithful ρ g₀ s o)
    (hself : ∀ r, ¬g₀.SelfNested r) (r : NodeId) :
    Acc (fun c r => c ∈ (s.graph.kind r).intersectionMembers) r := by
  have hold : ∀ r, ∀ c ∈ (s.graph.kind r).intersectionMembers,
      c ∈ (o.kind r).intersectionMembers := fun r c hc => by
    rcases H.kept r with hk | ⟨-, hi, -⟩
    · exact hk ▸ hc
    · rw [Kind.isIntersection_of_mem hc] at hi
      cases hi
  have hfirst : ∀ n r, r < g₀.size → (g₀.nested r).length ≤ n →
      Acc (fun c r => c ∈ (s.graph.kind r).intersectionMembers) r := by
    intro n
    induction n with
    | zero =>
      intro r hr hn
      have := List.length_pos_of_mem (self_mem_nested hr)
      omega
    | succ n ih =>
      refine fun r hr hn => .intro r fun c hc => ?_
      have hc := hold r c hc
      rw [H.grows.kind_eq r hr] at hc
      refine ih c (hg₀.lt_of_mem_children (Kind.mem_children_of_mem_intersectionMembers hc)) ?_
      have := length_nested_lt hg₀ (hself r) hc
      omega
  induction r using Nat.strongRecOn with
  | ind r ih =>
    by_cases hr : r < g₀.size
    · exact hfirst _ r hr (Nat.le_refl _)
    · exact .intro r fun c hc => ih c (H.nested_lt r (Nat.not_lt.1 hr) c (hold r c hc))

end Resolution

namespace Graph

variable {g : Graph}

/-- **Resolving intersections loses no value of a top level**, if no intersection is nested in
    itself to begin with, or none is left in the end; formats must have no strings in common, with
    each other or with the strings that the graph lists. -/
theorem resolution_keeps_values {formats : Format → String → Prop}
    (hsep : (Reading.closed formats).Separate) (hg : g.WellFormed)
    (hfree : ∀ r, (Reading.closed formats).Free (g.kind r).listed)
    (hnest : (∀ r, ¬g.SelfNested r) ∨ g.resolveIntersections.2 = true) {name : String} {v : Json}
    (hv : g.AdmitsAt (.closed formats) name v) :
    g.resolveIntersections.1.AdmitsAt (.closed formats) name v := by
  obtain ⟨r, hr, hv⟩ := hv
  obtain ⟨o, H⟩ := Resolution.rounds_spec rfl hsep Resolution.roundLimit
    (Resolution.faithful_start hg hfree)
  unfold resolveIntersections at hnest ⊢
  generalize Resolution.rounds Resolution.roundLimit (.ofGraph g) = s at H hnest ⊢
  dsimp only at hnest ⊢
  have hrtop : s.graph.topLevel? name = some r :=
    (congrArg (OrderedMap.get? · name) H.topLevels_eq).trans hr
  refine (admitsAt_collect H.wellFormed).2 ⟨r, hrtop, ?_⟩
  -- the old kinds, the old kinds unnested, the new kinds unnested, the new kinds
  have hv := admits_unnested hg hv
  rw [← admits_unnested_of_grows H.grows hg (hg.lt_of_topLevel hr)] at hv
  have hv := H.admits_unnested hv
  rcases hnest with hself | hdone
  · exact admits_of_unnested H.wellFormed (P := fun _ => True) (fun _ _ _ _ => trivial)
      (fun r _ => H.acc hg hself r) trivial hv
  · refine admits_of_unnested H.wellFormed (P := (· ∈ s.graph.reachable))
      (fun r hr c hc => mem_reachable_of_mem_children H.wellFormed hr hc) (fun r hr => ?_)
      (mem_reachable_of_topLevel H.wellFormed hrtop) hv
    refine .intro r fun c hc => ?_
    have hi := isIntersection_of_collect hdone hr
    rw [Kind.isIntersection_of_mem hc] at hi
    cases hi

/-- Lists of dates: a list of strings that is a list of dates, too. -/
def dates : Graph where
  nodes := #[.new (.string none), .new (.formatted .date), .new (.array 0), .new (.array 1),
    .new (.intersection (.ofList [2, 3]))]
  topLevels := .ofList [("Dates", 4)]

/-- The only strings with a format are leap days, which are dates. -/
def leapDays (f : Format) (s : String) : Prop :=
  f = .date ∧ s = "2020-02-29"

theorem resolution_keeps_dates :
    dates.AdmitsAt (.closed leapDays) "Dates" (.array [.string "2020-02-29"]) ∧
      dates.resolveIntersections.1.AdmitsAt (.closed leapDays) "Dates"
        (.array [.string "2020-02-29"]) := by
  have hv : dates.AdmitsAt (.closed leapDays) "Dates" (.array [.string "2020-02-29"]) := by
    have h0 : dates.Admits (.closed leapDays) 0 (.string "2020-02-29") :=
      admits_iff.2 ⟨_, rfl, fun _ h => nomatch h⟩
    have h1 : dates.Admits (.closed leapDays) 1 (.string "2020-02-29") :=
      admits_iff.2 ⟨_, rfl, rfl, rfl⟩
    refine ⟨4, rfl, admits_iff.2 fun m hm => ?_⟩
    have hm : m = 2 ∨ m = 3 := by simpa using SortedSet.mem_ofList.1 hm
    rcases hm with rfl | rfl
    · exact admits_iff.2 ⟨_, rfl, fun w hw => List.mem_singleton.1 hw ▸ h0⟩
    · exact admits_iff.2 ⟨_, rfl, fun w hw => List.mem_singleton.1 hw ▸ h1⟩
  refine ⟨hv, resolution_keeps_values ?_ ⟨by decide, by decide⟩ ?_ (.inr (by decide +kernel)) hv⟩
  · rintro f f' s ⟨rfl, -⟩ ⟨rfl, -⟩
    rfl
  · have hlisted : ∀ r < 5, (dates.kind r).listed = ∅ := by decide
    intro r s hs
    by_cases hr : r < 5
    · exact absurd (hlisted r hr ▸ hs) SortedSet.not_mem_empty
    · rw [kind_eq_nothing_of_le (Nat.not_lt.1 hr)] at hs
      exact absurd hs SortedSet.not_mem_empty

end Graph

/-! ## An intersection that is left -/

/-- An intersection with itself among its members admits nothing. -/
theorem Graph.not_admits_of_self_mem {g : Graph} {r : NodeId} {ms : SortedSet NodeId}
    (hk : g.kind r = .intersection ms) (hr : r ∈ ms) {v : Json} : ¬g.Admits ρ r v := by
  intro hv
  refine Admits.induction (P := fun x _ => x ≠ r) (fun x w h => ?_) hv rfl
  rintro rfl
  rw [hk] at h
  exact (h x hr).2 rfl

namespace Resolution

/-- A graph with an intersection nested in itself, `2`, that waits for itself, and with
    another, `8`, whose resolution makes a new one in each round. -/
def spiral : Graph where
  nodes := #[.new .null, .new (.union (.ofList [0, 2])), .new (.intersection (.ofList [0, 1, 2])),
    .new (.array 1), .new (.array 0), .new (.intersection (.ofList [3, 4])), .new (.array 8),
    .new (.array 7), .new (.intersection (.ofList [6, 7]))]
  topLevels := .ofList [("Lost", 5), ("Spiral", 8)]

/-- The members of the newest intersection. -/
def coilEnds (n : Nat) : SortedSet NodeId :=
  ⟨[7, n + 8], List.pairwise_pair.2 (show 7 < n + 8 by omega)⟩

theorem lt_of_mem_coilEnds {n m : Nat} (hm : m ∈ (coilEnds n).toList) : m < n + 9 := by
  have hm : m = 7 ∨ m = n + 8 := by simpa [coilEnds] using hm
  omega

/-- The state after `n + 1` rounds. -/
structure Spiral (n : Nat) (s : Resolution) : Prop where
  size_eq : s.graph.size = n + 10
  topLevels_eq : s.graph.topLevels = spiral.topLevels
  union_eq : s.graph.kind 1 = .union (.ofList [0, 2])
  knot_eq : s.graph.kind 2 = .intersection (.ofList [0, 1, 2])
  lost_eq : s.graph.kind 5 = .array 2
  loop_eq : s.graph.kind 7 = .array 7
  coil_eq : ∀ i ≤ n, s.graph.kind (i + 8) = .array (i + 9)
  end_eq : s.graph.kind (n + 9) = .intersection (coilEnds n)
  only : ∀ r, (s.graph.kind r).isIntersection = true → r = 2 ∨ r = n + 9
  keys_lt : ∀ set r, s.intersections.get? set = some r → ∀ m ∈ set, m < n + 9

theorem spiral_start : Spiral 0 (rounds 1 (.ofGraph spiral)) where
  size_eq := by decide +kernel
  topLevels_eq := by decide +kernel
  union_eq := by decide +kernel
  knot_eq := by decide +kernel
  lost_eq := by decide +kernel
  loop_eq := by decide +kernel
  coil_eq i hi := by
    obtain rfl := Nat.le_zero.1 hi
    decide +kernel
  end_eq := by decide +kernel
  only := by
    have hsmall : ∀ r < 10, ((rounds 1 (.ofGraph spiral)).graph.kind r).isIntersection = true →
        r = 2 ∨ r = 0 + 9 := by decide +kernel
    intro r hr
    by_cases hlt : r < 10
    · exact hsmall r hlt hr
    · have hsize : (rounds 1 (.ofGraph spiral)).graph.size = 10 := by decide +kernel
      rw [kind_eq_nothing_of_le (by rw [hsize]; exact Nat.not_lt.1 hlt)] at hr
      cases hr
  keys_lt set r hr m hm := by
    have hall : ∀ e ∈ (rounds 1 (.ofGraph spiral)).intersections.entries, ∀ m ∈ e.1.toList,
        m < 0 + 9 := by decide +kernel
    exact hall _ (OrderedMap.get?_eq_some_iff.1 hr) m hm

section
variable {n : Nat} {s : Resolution}

theorem Spiral.lt_size (H : Spiral n s) {r : Nat} (h : r < n + 10) : r < s.graph.size := by
  rw [H.size_eq]
  exact h

theorem Spiral.mem_reachable (H : Spiral n s) :
    2 ∈ s.graph.reachable ∧ ∀ i ≤ n + 1, i + 8 ∈ s.graph.reachable := by
  have hvalues : s.graph.topLevels.values = [5, 8] := by rw [H.topLevels_eq]; rfl
  constructor
  · have h5 : 5 ∈ s.graph.reachable :=
      mem_walk_of_mem_starts (by simp [hvalues]) (H.lt_size (by omega))
    refine mem_walk_of_mem_next h5 ?_ (H.lt_size (by omega))
    rw [H.lost_eq]
    exact List.mem_singleton_self 2
  · intro i
    induction i with
    | zero => exact fun _ => mem_walk_of_mem_starts (by simp [hvalues]) (H.lt_size (by omega))
    | succ i ih =>
      intro hi
      refine mem_walk_of_mem_next (ih (Nat.le_of_succ_le hi)) ?_ (H.lt_size (by omega))
      rw [H.coil_eq i (Nat.le_of_succ_le_succ hi)]
      exact List.mem_singleton_self _

theorem Spiral.reachableIntersections_eq (H : Spiral n s) :
    s.graph.reachableIntersections = [2, n + 9] := by
  have hset : SortedSet.ofList (s.graph.reachable.filter fun r => (s.graph.kind r).isIntersection) =
      ⟨[2, n + 9], List.pairwise_pair.2 (show 2 < n + 9 by omega)⟩ := by
    ext r
    rw [SortedSet.mem_ofList, List.mem_filter, ← SortedSet.mem_toList]
    simp only [List.mem_cons, List.not_mem_nil, or_false]
    constructor
    · exact fun h => H.only r h.2
    · rintro (rfl | rfl)
      · exact ⟨H.mem_reachable.1, by rw [H.knot_eq]; rfl⟩
      · exact ⟨H.mem_reachable.2 (n + 1) (Nat.le_refl _), by rw [H.end_eq]; rfl⟩
  exact congrArg SortedSet.toList hset

/-- The knot waits for itself. -/
theorem Spiral.awaits (H : Spiral n s) :
    (s.graph.expandedMembers 2).any s.graph.awaitsIntersection = true := by
  refine List.any_eq_true.2 ⟨1, mem_expandedMembers.2 ⟨?_, by rw [H.union_eq]; rfl⟩, ?_⟩
  · refine mem_walk_of_mem_next (self_mem_nested (H.lt_size (by omega))) ?_
      (H.lt_size (by omega))
    rw [H.knot_eq]
    decide
  · refine List.any_eq_true.2 ⟨2, ?_, by rw [H.knot_eq]; rfl⟩
    refine mem_walk_of_mem_next (mem_walk_of_mem_starts (List.mem_singleton_self 1)
      (H.lt_size (by omega))) ?_ (H.lt_size (by omega))
    rw [H.union_eq]
    decide

/-- The members of the newest intersection are arrays. -/
theorem Spiral.kind_end (H : Spiral n s) {m : NodeId} (hm : m ∈ coilEnds n) :
    s.graph.kind m = .array (s.graph.itemOf m) := by
  have hm : m = 7 ∨ m = n + 8 := by simpa [coilEnds] using SortedSet.mem_toList.2 hm
  rcases hm with rfl | rfl
  · rw [itemOf_eq H.loop_eq, H.loop_eq]
  · rw [itemOf_eq (H.coil_eq n (Nat.le_refl n)), H.coil_eq n (Nat.le_refl n)]

theorem Spiral.expandedMembers_end (H : Spiral n s) :
    s.graph.expandedMembers (n + 9) = [7, n + 8] :=
  expandedMembers_of_leaves H.end_eq fun m hm => by
    have hk := H.kind_end hm
    exact ⟨lt_size_of_array hk, by rw [hk]; rfl⟩

/-- Nothing but the state of the memo changes when members are registered. -/
theorem Spiral.register (H : Spiral n s) {e : NodeId × List NodeId} (he : ∀ m ∈ e.2, m < n + 9) :
    Spiral n (s.register e) := by
  unfold Resolution.register
  extract_lets members
  split
  · exact H
  · refine { H with keys_lt := fun set r hr m hm => ?_ }
    rw [OrderedMap.get?_insert] at hr
    split at hr
    · next hset =>
      rw [hset] at hm
      exact he m (SortedSet.mem_ofList.1 hm)
    · exact H.keys_lt set r hr m hm

/-- **Resolving the newest intersection makes another.** -/
theorem Spiral.resolve (H : Spiral n s) :
    Spiral (n + 1) (resolve false (n + 9) [7, n + 8] s).2 := by
  have hlt : (7 : Nat) < n + 9 := by omega
  have hmemo : s.intersections.get? (coilEnds (n + 1)) = none := by
    cases hr : s.intersections.get? (coilEnds (n + 1)) with
    | none => rfl
    | some r =>
      have hm : n + 9 ∈ coilEnds (n + 1) := List.mem_cons_of_mem 7 List.mem_cons_self
      exact absurd (H.keys_lt _ r hr _ hm) (Nat.lt_irrefl _)
  have hitems : ∀ i, i ∈ coilEnds (n + 1) ↔ ∃ m ∈ [7, n + 8], s.graph.itemOf m = i := fun i => by
    have hloop := itemOf_eq H.loop_eq
    have hcoil := itemOf_eq (H.coil_eq n (Nat.le_refl n))
    rw [← SortedSet.mem_toList]
    simp [coilEnds, hloop, hcoil, eq_comm]
  have h7 : 7 ∈ coilEnds (n + 1) := List.mem_cons_self
  have hend : n + 9 ∈ coilEnds (n + 1) := List.mem_cons_of_mem 7 List.mem_cons_self
  obtain ⟨a, he⟩ := resolve_arrays_new (e := n + 9) (fun m (hm : m ∈ [7, n + 8]) => H.kind_end hm)
    hitems ⟨7, h7⟩ (SortedSet.size_ne_one h7 hend (Nat.ne_of_lt hlt)) hmemo
  rw [he]
  -- the newest intersection becomes an array of the next one
  have hkind : ∀ r, (s.graph.unrolled (n + 9) (coilEnds (n + 1)) a).kind r =
      if n + 9 = r then .array (n + 10) else if r = n + 10 then .intersection (coilEnds (n + 1))
        else s.graph.kind r := fun r => by
    rw [kind_unrolled _ (H.lt_size (Nat.lt_succ_self _)), H.size_eq]
  have hold : ∀ r < n + 9, (s.graph.unrolled (n + 9) (coilEnds (n + 1)) a).kind r =
      s.graph.kind r := fun r hr => by
    rw [hkind, if_neg (Nat.ne_of_gt hr), if_neg (Nat.ne_of_lt (Nat.lt_succ_of_lt hr))]
  exact {
    size_eq := by
      show ((s.graph.unrolled _ _ _).size : Nat) = _
      rw [size_unrolled, H.size_eq]
    topLevels_eq := H.topLevels_eq
    union_eq := (hold 1 (by omega)).trans H.union_eq
    knot_eq := (hold 2 (by omega)).trans H.knot_eq
    lost_eq := (hold 5 (by omega)).trans H.lost_eq
    loop_eq := (hold 7 (by omega)).trans H.loop_eq
    coil_eq := fun i hi => by
      rcases Nat.lt_or_eq_of_le hi with hi | rfl
      · exact (hold (i + 8) (by omega)).trans (H.coil_eq i (Nat.le_of_lt_succ hi))
      · exact (hkind (n + 9)).trans (if_pos rfl)
    end_eq := (hkind (n + 10)).trans (by rw [if_neg (Nat.ne_of_lt (Nat.lt_succ_self _)), if_pos rfl])
    only := fun r hr => by
      have hr := (congrArg Kind.isIntersection (hkind r)).symm.trans hr
      split at hr
      · cases hr
      · next hne =>
        split at hr
        · next heq => exact .inr heq
        · exact (H.only r hr).imp id fun h => absurd h.symm hne
    keys_lt := fun set r hr m hm => by
      replace hr : (s.intersections.insert (coilEnds (n + 1)) _).get? set = some r := hr
      rw [OrderedMap.get?_insert] at hr
      split at hr
      · next hset =>
        rw [hset] at hm
        exact lt_of_mem_coilEnds hm
      · exact Nat.lt_succ_of_lt (H.keys_lt set r hr m hm) }

/-- The members of the knot are among the first three nodes. -/
theorem Spiral.lt_of_mem_expandedMembers (H : Spiral n s) {m : NodeId}
    (hm : m ∈ s.graph.expandedMembers 2) : m < 3 := by
  refine nested_induction (P := (· < 3)) (by decide) (fun x c hx hc => ?_)
    (mem_expandedMembers.1 hm).1
  have hk : (s.graph.kind x).isIntersection = true := Kind.isIntersection_of_mem hc
  rcases H.only x hk with rfl | rfl
  · rw [H.knot_eq] at hc
    revert hc c
    decide
  · exact absurd hx (Nat.not_lt.2 (Nat.le_add_left 3 (n + 6)))

theorem Spiral.round (H : Spiral n s) : Spiral (n + 1) (s.round [2, n + 9]) := by
  unfold Resolution.round
  extract_lets g expanded s₁ ready
  have hexp : expanded = [(2, g.expandedMembers 2), (n + 9, [7, n + 8])] := by
    simp [expanded, g, H.expandedMembers_end]
  have hready : ready = [(n + 9, [7, n + 8])] := by
    have h7 : g.awaitsIntersection 7 = false := awaitsIntersection_array H.loop_eq
    have h8 : g.awaitsIntersection (n + 8) = false :=
      awaitsIntersection_array (H.coil_eq n (Nat.le_refl n))
    have hknot : (g.expandedMembers 2).any g.awaitsIntersection = true := H.awaits
    simp [ready, hexp, hknot, h7, h8]
  have H₁ : Spiral n s₁ := by
    show Spiral n (expanded.foldl Resolution.register s)
    rw [hexp]
    refine Spiral.register (Spiral.register H fun m hm => ?_) fun m hm => ?_
    · exact Nat.lt_of_lt_of_le (H.lt_of_mem_expandedMembers hm) (Nat.le_add_left 3 (n + 6))
    · exact lt_of_mem_coilEnds hm
  simp only [hready, List.isEmpty_cons, Bool.false_eq_true, if_false]
  exact H₁.resolve

end

/-- **The spiral goes on**, however many rounds there are. -/
theorem spiral_rounds (n : Nat) : Spiral n (rounds (n + 1) (.ofGraph spiral)) := by
  induction n with
  | zero => exact spiral_start
  | succ n ih =>
    rw [rounds_succ, rounds, ih.reachableIntersections_eq]
    exact ih.round

/-- **The spiral loses a value.** -/
theorem resolution_loses_values : ¬∀ (formats : Format → String → Prop) (g : Graph) (name : String)
    (v : Json), (Reading.closed formats).Separate → g.WellFormed →
      (∀ r, (Reading.closed formats).Free (g.kind r).listed) → g.AdmitsAt (.closed formats) name v →
      g.resolveIntersections.1.AdmitsAt (.closed formats) name v := by
  intro h
  have hlost : spiral.AdmitsAt (.closed fun _ _ => False) "Lost" (.array [.null]) := by
    have h0 : spiral.Admits (.closed fun _ _ => False) 0 .null := admits_iff.2 rfl
    have h1 : spiral.Admits (.closed fun _ _ => False) 1 .null := admits_iff.2 ⟨0, by decide, h0⟩
    refine ⟨5, rfl, admits_iff.2 fun m hm => ?_⟩
    have hm : m = 3 ∨ m = 4 := by simpa using SortedSet.mem_ofList.1 hm
    rcases hm with rfl | rfl
    · exact admits_iff.2 ⟨_, rfl, fun w hw => List.mem_singleton.1 hw ▸ h1⟩
    · exact admits_iff.2 ⟨_, rfl, fun w hw => List.mem_singleton.1 hw ▸ h0⟩
  have hspiral : spiral.WellFormed := ⟨by decide, by decide⟩
  have hsep : (Reading.closed fun _ _ => False).Separate := fun _ _ _ h => h.elim
  have hfree : ∀ r, (Reading.closed fun _ _ => False).Free (spiral.kind r).listed :=
    fun _ _ _ _ => id
  have hafter := h _ spiral "Lost" _ hsep hspiral hfree hlost
  obtain ⟨o, F⟩ := rounds_spec rfl hsep roundLimit (faithful_start hspiral hfree)
  have H : Spiral 99 (rounds roundLimit (.ofGraph spiral)) := spiral_rounds 99
  unfold resolveIntersections at hafter
  generalize rounds roundLimit (.ofGraph spiral) = s at F H hafter
  -- after all the rounds the items are the knot
  obtain ⟨r, hr, hv⟩ := (admitsAt_collect F.wellFormed).1 hafter
  rw [topLevel?, H.topLevels_eq] at hr
  obtain rfl : 5 = r := Option.some.inj hr
  rw [admits_iff, H.lost_eq] at hv
  obtain ⟨ws, hws, hitems⟩ := hv
  cases hws
  exact not_admits_of_self_mem H.knot_eq (by decide) (hitems .null List.mem_cons_self)
end Resolution

end SchemaTypes
