/-
  Chains of redirections, and where following them ends.

  * `Redirection.Returns`: a chain that runs into a cycle started on it;
  * `followFrom_eq_follow`: then following a chain ends by itself, at the latest when every
    redirected node was passed, so the bound in `Redirection.follow` cuts nothing off;
  * `get?_indirections`: the redirection that intersections of a single member make, and
    `ChainsReturn`, what it means for their chains to return.
-/
import Mathlib.Data.Finset.Card
import Mathlib.Dynamics.PeriodicPts.Defs
import Mathlib.Logic.Relation
import SchemaTypes.Graph.Indirection
import SchemaTypes.Proofs.Following
import SchemaTypes.Proofs.Simulation

namespace SchemaTypes

open Relation (ReflTransGen TransGen)

namespace SortedMap

variable {κ ν : Type} [LT κ] [LE κ] [Std.IsLinearOrder κ] [Std.LawfulOrderLT κ] [DecidableLT κ]
  [DecidableEq κ] {l : List (κ × ν)} {k : κ} {v : ν}

/-- The keys of a list are keys of its map. -/
theorem isSome_get?_ofList (h : (k, v) ∈ l) : ((ofList l).get? k).isSome = true := by
  have hkeeps : ∀ (l : List (κ × ν)) (m : SortedMap κ ν),
      (k, v) ∈ l ∨ (m.get? k).isSome = true →
      ((l.foldl (fun m e => m.insert e.1 e.2) m).get? k).isSome = true := by
    intro l
    induction l with
    | nil => exact fun m h => h.resolve_left List.not_mem_nil
    | cons e l ih =>
      refine fun m h => ih _ ?_
      rw [get?_insert]
      rcases h with h | h
      · rcases List.mem_cons.1 h with rfl | h
        · exact .inr (by simp)
        · exact .inl h
      · refine .inr ?_
        split
        · rfl
        · exact h
  exact hkeeps l ∅ (.inl h)

end SortedMap

namespace Graph

/-! ## Following -/

namespace Redirection

variable {moved : Redirection} {start r s : NodeId} {n k : Nat}

/-- A node is redirected to another. -/
def Step (moved : Redirection) (r s : NodeId) : Prop := moved.get? r = some s

/-- A chain that runs into a cycle started on it. -/
def Returns (moved : Redirection) : Prop :=
  ∀ r s, ReflTransGen moved.Step r s → TransGen moved.Step s s → ReflTransGen moved.Step s r

/-- The next node of a chain; the last one stays. -/
def next (moved : Redirection) (r : NodeId) : NodeId := (moved.get? r).getD r

/-- Following a chain from `start` goes no further than this node. -/
def Stops (moved : Redirection) (start r : NodeId) : Prop :=
  ∀ s, moved.get? r = some s → s = start ∨ s = r

theorem next_of_step (h : moved.Step r s) : moved.next r = s := by
  rw [next, h, Option.getD_some]

theorem followFrom_of_stops (h : moved.Stops start r) (n : Nat) :
    moved.followFrom start n r = r := by
  cases n with
  | zero => rfl
  | succ n =>
    rw [followFrom]
    split
    · next s hs => exact if_pos (h s hs)
    · rfl

theorem followFrom_of_not_stops (h : ¬moved.Stops start r) (n : Nat) :
    moved.followFrom start (n + 1) r = moved.followFrom start n (moved.next r) := by
  simp only [Stops, not_forall] at h
  obtain ⟨s, hs, hne⟩ := h
  rw [followFrom, next_of_step hs, hs]
  exact if_neg hne

/-- Following a chain comes to the first node where it stops. -/
theorem followFrom_eq_iterate (hbefore : ∀ i < k, ¬moved.Stops start (moved.next^[i] r))
    (hstops : moved.Stops start (moved.next^[k] r)) (hn : k ≤ n) :
    moved.followFrom start n r = moved.next^[k] r := by
  induction k generalizing n r with
  | zero => exact followFrom_of_stops hstops n
  | succ k ih =>
    obtain ⟨n, rfl⟩ := Nat.exists_eq_add_of_le' (Nat.le_trans (Nat.succ_pos k) hn)
    have hgoes : ¬moved.Stops start r := hbefore 0 (Nat.succ_pos k)
    exact (followFrom_of_not_stops hgoes n).trans
      (ih (fun i hi => hbefore (i + 1) (by omega)) hstops (Nat.le_of_succ_le_succ hn))

theorem exists_iterate (h : ReflTransGen moved.Step r s) : ∃ n, moved.next^[n] r = s := by
  induction h with
  | refl => exact ⟨0, rfl⟩
  | tail _ hstep ih =>
    obtain ⟨n, rfl⟩ := ih
    exact ⟨n + 1, by rw [Function.iterate_succ_apply', next_of_step hstep]⟩

theorem reaches_iterate (hstep : ∀ k < n, moved.Step (moved.next^[k] r) (moved.next^[k + 1] r))
    {i j : Nat} (hij : i ≤ j) (hj : j ≤ n) :
    ReflTransGen moved.Step (moved.next^[i] r) (moved.next^[j] r) := by
  induction j, hij using Nat.le_induction with
  | base => exact .refl
  | succ j hij ih => exact (ih (Nat.le_of_succ_le hj)).tail (hstep j hj)

/-- A chain that goes on for more nodes than there are keys comes to some node twice. -/
theorem exists_iterate_eq (hstep : ∀ k ≤ moved.toList.length,
      moved.Step (moved.next^[k] r) (moved.next^[k + 1] r)) :
    ∃ i j, i < j ∧ j ≤ moved.toList.length ∧ moved.next^[i] r = moved.next^[j] r := by
  have hmaps : ∀ k ∈ Finset.range (moved.toList.length + 1),
      moved.next^[k] r ∈ moved.keys.toFinset := by
    intro k hk
    have hk := hstep k (Nat.lt_succ_iff.1 (Finset.mem_range.1 hk))
    exact List.mem_toFinset.2 (List.mem_map_of_mem (f := Prod.fst) (mem_of_lookup hk))
  have hcard : moved.keys.toFinset.card < (Finset.range (moved.toList.length + 1)).card := by
    have hle := moved.keys.toFinset_card_le
    rw [SortedMap.keys, List.length_map] at hle
    rw [Finset.card_range, SortedMap.keys]
    omega
  obtain ⟨i, hi, j, hj, hne, heq⟩ := Finset.exists_ne_map_eq_of_card_lt_of_maps_to hcard hmaps
  rw [Finset.mem_range] at hi hj
  rcases Nat.lt_or_gt_of_ne hne with hlt | hlt
  · exact ⟨i, j, hlt, by omega, heq⟩
  · exact ⟨j, i, hlt, by omega, heq.symm⟩

/-- Where iterates repeat and lead back to the start, they do so before the repetition. -/
theorem exists_iterate_succ_eq {α : Type} {f : α → α} {x : α} {i j l : Nat} (hlt : i < j)
    (heq : f^[i] x = f^[j] x) (hl : f^[l] (f^[i] x) = x) : ∃ m < j, f^[m + 1] x = x := by
  have hperiod : Function.IsPeriodicPt f (j - i) (f^[i] x) := by
    rw [Function.IsPeriodicPt, Function.IsFixedPt, ← Function.iterate_add_apply,
      Nat.sub_add_cancel (Nat.le_of_lt hlt), heq]
  rw [← hperiod.iterate_mod_apply, ← Function.iterate_add_apply] at hl
  have hmod := Nat.mod_lt l (Nat.sub_pos_of_lt hlt)
  cases hm : l % (j - i) + i with
  | zero =>
    obtain rfl : i = 0 := by omega
    obtain ⟨m, rfl⟩ := Nat.exists_eq_add_of_lt hlt
    rw [Nat.zero_add] at heq
    exact ⟨m, by omega, heq.symm⟩
  | succ m =>
    rw [hm] at hl
    exact ⟨m, by omega, hl⟩

/-- **Following a chain that may only return to its start stops**, before more nodes are passed
    than are redirected: otherwise a node is passed twice, so the chain runs into a cycle, and the
    start lies on it. -/
theorem exists_stops (h : moved.Returns) (r : NodeId) :
    ∃ k ≤ moved.toList.length, moved.Stops r (moved.next^[k] r) := by
  by_contra hnone
  have hgoes : ∀ k ≤ moved.toList.length,
      moved.Step (moved.next^[k] r) (moved.next^[k + 1] r) ∧ moved.next^[k + 1] r ≠ r := by
    intro k hk
    have hstops : ¬moved.Stops r (moved.next^[k] r) := fun hstops => hnone ⟨k, hk, hstops⟩
    simp only [Stops, not_forall] at hstops
    obtain ⟨s, hs, hne⟩ := hstops
    rw [Function.iterate_succ_apply', next_of_step hs]
    exact ⟨hs, fun hr => hne (.inl hr)⟩
  obtain ⟨i, j, hlt, hj, heq⟩ := exists_iterate_eq fun k hk => (hgoes k hk).1
  have hstep : ∀ k < j, moved.Step (moved.next^[k] r) (moved.next^[k + 1] r) := fun k hk =>
    (hgoes k (Nat.le_of_lt (Nat.lt_of_lt_of_le hk hj))).1
  have hcycle : TransGen moved.Step (moved.next^[i] r) (moved.next^[i] r) := by
    have hrest := reaches_iterate hstep hlt (Nat.le_refl j)
    rw [← heq] at hrest
    exact .head' (hstep i hlt) hrest
  have hreach := reaches_iterate hstep (Nat.zero_le i) (Nat.le_of_lt hlt)
  -- so the chain returns to its start, and would have stopped there
  obtain ⟨l, hl⟩ := exists_iterate (h r _ hreach hcycle)
  obtain ⟨m, hm, hback⟩ := exists_iterate_succ_eq hlt heq hl
  exact (hgoes m (Nat.le_of_lt (Nat.lt_of_lt_of_le hm hj))).2 hback

/-- Such a chain has a first node where following it stops. -/
theorem exists_first_stop (h : moved.Returns) (r : NodeId) :
    ∃ k ≤ moved.toList.length, moved.Stops r (moved.next^[k] r) ∧
      ∀ i < k, ¬moved.Stops r (moved.next^[i] r) := by
  classical
  have hex : ∃ k, moved.Stops r (moved.next^[k] r) :=
    (exists_stops h r).imp fun k hk => hk.2
  have hfind : Nat.find hex ≤ moved.toList.length := by
    obtain ⟨k, hk, hstops⟩ := exists_stops h r
    exact Nat.le_trans (Nat.find_min' hex hstops) hk
  exact ⟨Nat.find hex, hfind, Nat.find_spec hex, fun i hi => Nat.find_min hex hi⟩

/-- **Where chains return, the bound of following cuts nothing off.** -/
theorem followFrom_eq_follow (h : moved.Returns) (hn : moved.toList.length ≤ n) (r : NodeId) :
    moved.followFrom r n r = moved.follow r := by
  obtain ⟨k, hk, hstops, hbefore⟩ := exists_first_stop h r
  rw [follow, followFrom_eq_iterate hbefore hstops (Nat.le_trans hk hn),
    followFrom_eq_iterate hbefore hstops hk]

end Redirection

/-! ## Intersections of a single member -/

/-- A node is an intersection of a single member, another node. -/
def Leads (g : Graph) (r m : NodeId) : Prop := g.kind r = .intersection (.singleton m) ∧ m ≠ r

/-- No chain of intersections of a single member runs into a cycle that does not contain its
    start. -/
def ChainsReturn (g : Graph) : Prop :=
  ∀ r s, ReflTransGen g.Leads r s → TransGen g.Leads s s → ReflTransGen g.Leads s r

theorem mem_indirections {g : Graph} {r m : NodeId} :
    (r, m) ∈ (g.ids.filterMap fun r => match g.kind r with
      | .intersection ms =>
        match ms.toList with
        | [only] => if only = r then none else some (r, only)
        | _ => none
      | _ => none) ↔ g.Leads r m := by
  rw [List.mem_filterMap]
  constructor
  · rintro ⟨s, -, hs⟩
    split at hs
    · next ms hms =>
      split at hs
      · next only honly =>
        split at hs
        · cases hs
        · next hne =>
          cases hs
          refine ⟨?_, hne⟩
          rw [hms, Kind.intersection.injEq]
          ext c
          rw [← SortedSet.mem_toList, honly, List.mem_singleton, SortedSet.mem_singleton]
      · cases hs
    · cases hs
  · rintro ⟨hkind, hne⟩
    refine ⟨r, List.mem_range.2 (lt_size_of_kind_ne (by simp [hkind])), ?_⟩
    simp [hkind, SortedSet.singleton, hne]

/-- The redirection leads from the intersections of a single member to that member. -/
theorem get?_indirections {g : Graph} {r m : NodeId} :
    g.indirections.get? r = some m ↔ g.Leads r m := by
  constructor
  · exact fun h => mem_indirections.1 (SortedMap.mem_of_get?_ofList h)
  · intro h
    obtain ⟨m', hm'⟩ := Option.isSome_iff_exists.1
      (SortedMap.isSome_get?_ofList (mem_indirections.2 h))
    have hleads : g.Leads r m' := mem_indirections.1 (SortedMap.mem_of_get?_ofList hm')
    have hmembers := h.1.symm.trans hleads.1
    rw [Kind.intersection.injEq] at hmembers
    obtain rfl : m = m' := SortedSet.mem_singleton.1 (hmembers ▸ SortedSet.mem_singleton.2 rfl)
    exact hm'

theorem step_indirections (g : Graph) : g.indirections.Step = g.Leads :=
  funext fun _ => funext fun _ => propext get?_indirections

theorem ChainsReturn.returns {g : Graph} (h : g.ChainsReturn) : g.indirections.Returns := by
  unfold Redirection.Returns
  rw [step_indirections]
  exact h

end Graph

end SchemaTypes
