/-
  Passes that are repeated.

  A stage applies passes in turn until the graph stays as it is.  Four things can happen, and the
  first of them decides: a pass changes nothing and says that it is done, it changes nothing but
  says that there is more to do, it changes something after the one before said that it was done, or
  the limit is reached.

  * `Graph.Reordered`: two graphs differ at most in the order of properties and of top levels, which
    is what stages compare (`Graph.same_iff`);
  * `Stage.after`, `Stage.Changes`, `Stage.Reports`: the graphs of a repetition, and what the
    application of each number does;
  * `Stage.GoesOn`: what is known when the next application is due (`run_of_due`);
  * `Stage.Ends`: the four ways in which a repetition ends, and `toFixedPoint_outcome`: it always
    ends in one of them.
-/
import Mathlib.Data.List.Nodup
import Mathlib.Data.List.Perm.Subperm
import SchemaTypes.Proofs.Ensures

namespace SchemaTypes

/-! ## Graphs up to order -/

/-- Maps are the same if they have the same entries, in whatever order. -/
theorem OrderedMap.same_iff {κ ν : Type} [DecidableEq κ] [DecidableEq ν] {m n : OrderedMap κ ν} :
    m.same n = true ↔ m.entries.Perm n.entries := by
  rw [same, Bool.and_eq_true, List.all_eq_true]
  constructor
  · rintro ⟨hsize, hall⟩
    have hsub : m.entries ⊆ n.entries := fun e he =>
      get?_eq_some_iff.1 (beq_iff_eq.1 (hall e he))
    have hlength : n.entries.length ≤ m.entries.length := Nat.le_of_eq (beq_iff_eq.1 hsize).symm
    exact (List.subperm_of_subset (List.Nodup.of_map _ m.nodup) hsub).perm_of_length_le hlength
  · intro hperm
    refine ⟨beq_iff_eq.2 hperm.length_eq, fun e he => ?_⟩
    rw [get?_eq_some_iff.2 (hperm.subset he)]
    simp

/-- Kinds that differ at most in the order of their properties. -/
def Kind.Reordered : Kind → Kind → Prop
  | object ps a, object qs b => ps.entries.Perm qs.entries ∧ a = b
  | record ps, record qs => ps.entries.Perm qs.entries
  | k, l => k = l

theorem Kind.same_iff {k l : Kind} : k.same l = true ↔ k.Reordered l := by
  unfold Kind.same Reordered
  split <;> simp [OrderedMap.same_iff]

/-- Nodes that differ at most in the order of properties. -/
structure Node.Reordered (a b : Node) : Prop where
  kind : a.kind.Reordered b.kind
  attributes : a.attributes.same b.attributes = true
  fixed : a.fixed = b.fixed
  name : a.name = b.name

theorem Node.same_iff {a b : Node} : a.same b = true ↔ a.Reordered b := by
  simp only [Node.same, Bool.and_eq_true, beq_iff_eq, Kind.same_iff]
  constructor
  · rintro ⟨⟨⟨hkind, hattributes⟩, hfixed⟩, hname⟩
    exact ⟨hkind, hattributes, hfixed, hname⟩
  · rintro ⟨hkind, hattributes, hfixed, hname⟩
    exact ⟨⟨⟨hkind, hattributes⟩, hfixed⟩, hname⟩

/-- Graphs that differ at most in the order of properties and of top levels. -/
structure Graph.Reordered (g h : Graph) : Prop where
  size : g.size = h.size
  node : ∀ r < g.size, (g.node r).Reordered (h.node r)
  topLevels : g.topLevels.entries.Perm h.topLevels.entries

theorem Graph.same_iff {g h : Graph} : g.same h = true ↔ g.Reordered h := by
  have hnodes : g.size = h.size →
      ((∀ p ∈ g.nodes.toList.zip h.nodes.toList, p.1.same p.2 = true) ↔
        ∀ r < g.size, (g.node r).Reordered (h.node r)) := by
    intro hsize
    rw [List.forall_mem_iff_forall_getElem]
    simp only [List.length_zip, Array.length_toList, List.getElem_zip, Array.getElem_toList,
      Node.same_iff]
    constructor
    · intro hall r hr
      have hrg : r < g.nodes.size := hr
      have hrh : r < h.nodes.size := Nat.lt_of_lt_of_eq hr hsize
      simpa [Graph.node, Array.getD, hrg, hrh] using hall r (Nat.lt_min.2 ⟨hrg, hrh⟩)
    · intro hall r hr
      obtain ⟨hrg, hrh⟩ := Nat.lt_min.1 hr
      simpa [Graph.node, Array.getD, hrg, hrh] using hall r hrg
  simp only [Graph.same, Bool.and_eq_true, beq_iff_eq, List.all_eq_true, OrderedMap.same_iff]
  constructor
  · rintro ⟨⟨hsize, hall⟩, htop⟩
    exact ⟨hsize, (hnodes hsize).1 hall, htop⟩
  · rintro ⟨hsize, hall, htop⟩
    exact ⟨⟨hsize, (hnodes hsize).2 hall⟩, htop⟩

namespace Stage

/-! ## What applications do -/

section

variable (passes : Nat → Pass) (g : Graph)

/-- The graph after as many applications. -/
def after : Nat → Graph
  | 0 => g
  | n + 1 => (passes n (after n)).1.collect

/-- The application of a number changes more than the order of properties and top levels. -/
def Changes (n : Nat) : Prop := ¬(after passes g (n + 1)).Reordered (after passes g n)

/-- The pass of a number says that it is done. -/
def Reports (n : Nat) : Prop := (passes n (after passes g n)).2 = true

/-- The application of a number is due: each before changed the graph, and none of those that
    another one followed said that it was done. -/
structure GoesOn (n : Nat) : Prop where
  changes : ∀ i < n, Changes passes g i
  unreported : ∀ i, i + 1 < n → ¬Reports passes g i

/-- How a repetition ends, and with which graph. -/
inductive Ends (stage : String) : Except StageError Unit → Graph → Prop
  /-- A pass that is done changes nothing. -/
  | settled {k : Nat} (hk : k < iterationLimit) (hdue : GoesOn passes g k)
      (hsame : ¬Changes passes g k) (hdone : Reports passes g k) :
      Ends stage (.ok ⟨⟩) (after passes g (k + 1))
  /-- A pass that is not done changes nothing. -/
  | stuck {k : Nat} (hk : k < iterationLimit) (hdue : GoesOn passes g k)
      (hsame : ¬Changes passes g k) (hdone : ¬Reports passes g k) :
      Ends stage (.error (.notConverged stage)) (after passes g (k + 1))
  /-- A pass changes something, and the one before said that it was done. -/
  | relapsed {k : Nat} (hk : k + 1 < iterationLimit) (hdue : GoesOn passes g (k + 1))
      (hdone : Reports passes g k) (hchanges : Changes passes g (k + 1)) :
      Ends stage (.error (.changedAfterDone stage)) (after passes g (k + 2))
  /-- As many passes as are allowed change something. -/
  | exhausted (hdue : GoesOn passes g iterationLimit) :
      Ends stage (.error (.iterationLimit stage iterationLimit)) (after passes g iterationLimit)

end

variable {passes : Nat → Pass} {g : Graph} {stage : String} {n : Nat}

theorem not_changes_iff :
    ¬Changes passes g n ↔ (after passes g (n + 1)).same (after passes g n) = true := by
  rw [Changes, not_not, Graph.same_iff]

/-- What the application before said. -/
def reported (passes : Nat → Pass) (g : Graph) : Nat → Bool
  | 0 => false
  | n + 1 => (passes n (after passes g n)).2

theorem goesOn_succ (h : GoesOn passes g n) (hchanges : Changes passes g n)
    (hreported : reported passes g n = false) : GoesOn passes g (n + 1) where
  changes i hi := by
    rcases Nat.lt_succ_iff_lt_or_eq.1 hi with hi | rfl
    · exact h.changes i hi
    · exact hchanges
  unreported i hi := by
    rcases Nat.lt_succ_iff_lt_or_eq.1 hi with hi | rfl
    · exact h.unreported i hi
    · simpa [reported, Reports] using hreported

theorem GoesOn.of_succ (h : GoesOn passes g (n + 1)) : GoesOn passes g n where
  changes i hi := h.changes i (Nat.lt_succ_of_lt hi)
  unreported i hi := h.unreported i (Nat.lt_succ_of_lt hi)

theorem GoesOn.reported_eq (h : GoesOn passes g (n + 1)) : reported passes g n = false := by
  cases n with
  | zero => rfl
  | succ n => exact Bool.eq_false_iff.2 (h.unreported n (Nat.lt_succ_self _))

theorem GoesOn.same_eq (h : GoesOn passes g (n + 1)) :
    (after passes g (n + 1)).same (after passes g n) = false := by
  rw [← Bool.not_eq_true, ← not_changes_iff, not_not]
  exact h.changes n (Nat.lt_succ_self n)

/-- **What an application that is due comes to.**  The induction is on the applications before:
    each of them was due, and led to the next one. -/
theorem run_of_due {m : Nat} (h : GoesOn passes g n) (hm : iterationLimit = n + m + 1) :
    (toFixedPoint stage passes).run g =
      if (after passes g (n + 1)).same (after passes g n) then
        if (passes n (after passes g n)).2 then (.ok ⟨⟩, after passes g (n + 1))
        else (.error (.notConverged stage), after passes g (n + 1))
      else if reported passes g n then
        (.error (.changedAfterDone stage), after passes g (n + 1))
      else (repeatFrom stage passes m (n + 1) (reported passes g (n + 1))).run
        (after passes g (n + 1)) := by
  induction n generalizing m with
  | zero =>
    rw [Nat.zero_add] at hm
    rw [toFixedPoint, hm]
    exact run_repeatFrom_succ stage passes m 0 false g
  | succ n ih =>
    rw [ih h.of_succ (m := m + 1) (by omega), h.same_eq, h.reported_eq]
    exact run_repeatFrom_succ stage passes m (n + 1) _ (after passes g (n + 1))

/-! ## How repetitions end -/

/-- A repetition comes to each of its ends. -/
theorem run_of_ends {x : Except StageError Unit} {g' : Graph} (h : Ends passes g stage x g') :
    (toFixedPoint stage passes).run g = (x, g') := by
  cases h with
  | settled hk hdue hsame hdone =>
    obtain ⟨m, hm⟩ := Nat.exists_eq_add_of_lt hk
    rw [run_of_due hdue hm, if_pos (not_changes_iff.1 hsame)]
    exact if_pos hdone
  | stuck hk hdue hsame hdone =>
    obtain ⟨m, hm⟩ := Nat.exists_eq_add_of_lt hk
    rw [run_of_due hdue hm, if_pos (not_changes_iff.1 hsame)]
    exact if_neg hdone
  | @relapsed k hk hdue hdone hchanges =>
    obtain ⟨m, hm⟩ := Nat.exists_eq_add_of_lt hk
    have hsame : ¬(after passes g (k + 2)).same (after passes g (k + 1)) = true :=
      fun h => not_changes_iff.2 h hchanges
    have hreported : reported passes g (k + 1) = true := hdone
    rw [run_of_due hdue hm, if_neg hsame, if_pos hreported]
  | exhausted hdue =>
    rw [run_of_due hdue.of_succ (m := 0) rfl, hdue.same_eq, hdue.reported_eq]
    rfl

/-- Each application either is the last one or leads to the next. -/
theorem ends_or_goesOn (stage : String) (h : GoesOn passes g n) (hn : n < iterationLimit) :
    (∃ x g', Ends passes g stage x g') ∨ GoesOn passes g (n + 1) := by
  by_cases hchanges : Changes passes g n
  · cases hreported : reported passes g n with
    | false => exact .inr (goesOn_succ h hchanges hreported)
    | true =>
      cases n with
      | zero => cases hreported
      | succ k => exact .inl ⟨_, _, .relapsed hn h hreported hchanges⟩
  · by_cases hdone : Reports passes g n
    · exact .inl ⟨_, _, .settled hn h hchanges hdone⟩
    · exact .inl ⟨_, _, .stuck hn h hchanges hdone⟩

/-- A repetition has an end: by induction on the applications that are due. -/
theorem exists_ends (stage : String) (passes : Nat → Pass) (g : Graph) :
    ∃ x g', Ends passes g stage x g' := by
  have hreach : ∀ n ≤ iterationLimit, (∃ x g', Ends passes g stage x g') ∨ GoesOn passes g n := by
    intro n hn
    induction n with
    | zero => exact .inr ⟨fun i hi => absurd hi (Nat.not_lt_zero i), fun i hi => by omega⟩
    | succ n ih =>
      rcases ih (Nat.le_of_lt hn) with hends | hdue
      · exact .inl hends
      · exact ends_or_goesOn stage hdue hn
  rcases hreach iterationLimit (Nat.le_refl _) with hends | hdue
  · exact hends
  · exact ⟨_, _, .exhausted hdue⟩

/-- **What a repetition comes to.**  It ends in just one of the four ways, with the graph of its
    last application.  It succeeds exactly if one of the first 64 applications leaves the graph as
    it was, but for order, and says that it is done, while all before changed the graph and at most
    the last of them said so; and then the graph is the one before that application, but for
    order. -/
theorem toFixedPoint_outcome (stage : String) (passes : Nat → Pass) (g : Graph) :
    (∀ x g', (toFixedPoint stage passes).run g = (x, g') ↔ Ends passes g stage x g') ∧
    (((toFixedPoint stage passes).run g).1 = .ok ⟨⟩ ↔
      ∃ k < 64, ((toFixedPoint stage passes).run g).2.Reordered (after passes g k) ∧
        (after passes g (k + 1)).Reordered (after passes g k) ∧ Reports passes g k ∧
        (∀ i < k, Changes passes g i) ∧ ∀ i, i + 1 < k → ¬Reports passes g i) := by
  have hiff : ∀ x g', (toFixedPoint stage passes).run g = (x, g') ↔ Ends passes g stage x g' := by
    intro x g'
    constructor
    · intro hrun
      obtain ⟨x', g'', hends⟩ := exists_ends stage passes g
      cases hrun.symm.trans (run_of_ends hends)
      exact hends
    · exact run_of_ends
  refine ⟨hiff, ?_, ?_⟩
  · intro hok
    cases hrun : (toFixedPoint stage passes).run g with
    | mk x g' =>
      rw [hrun] at hok
      cases hok
      cases (hiff _ _).1 hrun with
      | settled hk hdue hsame hdone =>
        rw [Changes, not_not] at hsame
        exact ⟨_, hk, hsame, hsame, hdone, hdue.changes, hdue.unreported⟩
  · rintro ⟨k, hk, -, hsame, hdone, hchanges, hunreported⟩
    rw [run_of_ends (.settled hk ⟨hchanges, hunreported⟩ (not_not.2 hsame) hdone)]

end Stage

end SchemaTypes
