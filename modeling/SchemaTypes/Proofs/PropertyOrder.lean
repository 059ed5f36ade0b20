/-
  The order of declared properties.

  A schema may list names in an order.  Declared properties that are listed come first, as they are
  listed; the others follow by their names in lower case.

  * `pairwise_mergeSort_of_pairwise`: sorting is stable;
  * `Arranged`: what the order of names is to be, in two parts, and there is just one such order
    (`Arranged.unique`);
  * `Schema.exists_arranged`: **declared properties are put in that order**.
-/
import Mathlib.Data.List.Basic
import SchemaTypes.Proofs.Places

namespace SchemaTypes

/-! ## Sorted lists -/

section

variable {α : Type} {le : α → α → Bool} {l : List α}

/-- **Sorting is stable**: those that may stand either way stand as before. -/
theorem pairwise_mergeSort_of_pairwise {R : α → α → Prop}
    (htrans : ∀ a b c, le a b = true → le b c = true → le a c = true)
    (htotal : ∀ a b, (le a b || le b a) = true) (hR : l.Pairwise R) :
    (l.mergeSort le).Pairwise fun a b => le a b = true ∧ (le b a = true → R a b) := by
  have hsorted := List.pairwise_mergeSort htrans htotal l
  rw [List.pairwise_iff_forall_sublist] at hsorted hR ⊢
  intro a b hab
  refine ⟨hsorted hab, fun hba => hR ?_⟩
  -- Sorting keeps the sublist of all that may stand on either side of the first one.
  have htied : (l.mergeSort le).filter (fun x => le a x && le x a) =
      l.filter fun x => le a x && le x a := by
    have hpairwise : (l.filter fun x => le a x && le x a).Pairwise (le · ·) := by
      refine List.pairwise_of_forall_mem_list fun x hx y hy => ?_
      simp only [List.mem_filter, Bool.and_eq_true] at hx hy
      exact htrans x a y hx.2.2 hy.2.1
    have hsublist := (List.sublist_mergeSort htrans htotal hpairwise List.filter_sublist).filter
      fun x => le a x && le x a
    simp only [List.filter_filter, Bool.and_self] at hsublist
    have hperm := (List.mergeSort_perm l le).filter fun x => le a x && le x a
    exact (hsublist.eq_of_length hperm.length_eq.symm).symm
  have haa : le a a = true := by simpa using htotal a a
  have hpair := hab.filter fun x => le a x && le x a
  rw [htied] at hpair
  simp only [List.filter_cons, haa, hsorted hab, hba, Bool.and_self, if_true,
    List.filter_nil] at hpair
  exact hpair.trans List.filter_sublist

/-- A list falls into two parts if what satisfies a predicate comes first. -/
theorem filter_append_filter_of_pairwise {p : α → Bool}
    (h : l.Pairwise fun a b => p b = true → p a = true) :
    l.filter p ++ l.filter (fun a => !p a) = l := by
  induction l with
  | nil => rfl
  | cons a l ih =>
    obtain ⟨ha, hl⟩ := List.pairwise_cons.1 h
    by_cases hp : p a
    · simp [hp, ih hl]
    · have hnone : l.filter p = [] := by
        rw [List.filter_eq_nil_iff]
        intro b hb hpb
        exact hp (ha b hb hpb)
      have hrest := ih hl
      rw [hnone, List.nil_append] at hrest
      simp [hp, hnone, hrest]

/-- In a list without repetitions, positions increase. -/
theorem pairwise_idxOf_of_nodup [DecidableEq α] (h : l.Nodup) :
    l.Pairwise fun a b => l.idxOf a < l.idxOf b := by
  rw [List.pairwise_iff_getElem]
  intro i j hi hj hij
  rwa [h.idxOf_getElem, h.idxOf_getElem]

end

/-! ## Names in order -/

/-- Declared names in order, given the order that some names have: those that are listed, by their
    first positions, and the others by their names in lower case, or as they are declared if these
    are the same. -/
structure Arranged (order declared listed others : List String) : Prop where
  listed_perm : listed.Perm (declared.filter (· ∈ order))
  listed_order : listed.Pairwise fun a b => order.idxOf a < order.idxOf b
  others_perm : others.Perm (declared.filter (· ∉ order))
  others_order : others.Pairwise fun a b =>
    Text.lowercase a ≤ Text.lowercase b ∧
      (Text.lowercase a = Text.lowercase b → declared.idxOf a < declared.idxOf b)

/-- **There is just one such order.** -/
theorem Arranged.unique {order declared listed others listed' others' : List String}
    (h : Arranged order declared listed others) (h' : Arranged order declared listed' others') :
    listed = listed' ∧ others = others' := by
  constructor
  · refine (h.listed_perm.trans h'.listed_perm.symm).eq_of_pairwise ?_ h.listed_order
      h'.listed_order
    intro a b _ _ hab hba
    omega
  · refine (h.others_perm.trans h'.others_perm.symm).eq_of_pairwise ?_ h.others_order
      h'.others_order
    rintro a b _ _ ⟨hab, htie⟩ ⟨hba, htie'⟩
    have heq := String.le_antisymm hab hba
    have hlt := htie heq
    have hgt := htie' heq.symm
    omega

namespace Schema

variable {order : List String} {a b : String}

theorem orderKey_of_mem (ha : a ∈ order) : orderKey order a = (order.idxOf a, "") := by
  obtain ⟨i, hi⟩ := Option.isSome_iff_exists.1 (List.isSome_idxOf?.2 ha)
  simp [orderKey, List.idxOf_eq_getD_idxOf?, hi]

theorem orderKey_of_not_mem (ha : a ∉ order) :
    orderKey order a = (order.length, Text.lowercase a) := by
  simp [orderKey, List.idxOf?_eq_none_iff.2 ha]

theorem orderedBefore_of_mem (ha : a ∈ order) (hb : b ∈ order) :
    orderedBefore order a b = true ↔ order.idxOf a ≤ order.idxOf b := by
  simp [orderedBefore, orderKey_of_mem ha, orderKey_of_mem hb, Nat.le_iff_lt_or_eq]

theorem orderedBefore_of_not_mem (ha : a ∉ order) (hb : b ∉ order) :
    orderedBefore order a b = true ↔ Text.lowercase a ≤ Text.lowercase b := by
  simp [orderedBefore, orderKey_of_not_mem ha, orderKey_of_not_mem hb]

/-- Listed names come first. -/
theorem mem_of_orderedBefore (h : orderedBefore order a b = true) (hb : b ∈ order) : a ∈ order := by
  by_contra ha
  have hlt := List.idxOf_lt_length_of_mem hb
  simp only [orderedBefore, orderKey_of_not_mem ha, orderKey_of_mem hb, Bool.or_eq_true,
    Bool.and_eq_true, decide_eq_true_eq, beq_iff_eq] at h
  omega

/-- **Declared properties are put in order.** -/
theorem exists_arranged (s : Schema) {properties : Json.Fields}
    (hnodup : (properties.map Prod.fst).Nodup) :
    ∃ listed others, (s.orderedProperties properties).map Prod.fst = listed ++ others ∧
      Arranged s.propertyOrder (properties.map Prod.fst) listed others := by
  have hnames : (s.orderedProperties properties).map Prod.fst =
      (properties.map Prod.fst).mergeSort (orderedBefore s.propertyOrder) :=
    List.map_mergeSort fun _ _ _ _ => rfl
  have hsorted := pairwise_mergeSort_of_pairwise (orderedBefore_trans s.propertyOrder)
    (orderedBefore_total s.propertyOrder) (pairwise_idxOf_of_nodup hnodup)
  have hperm := List.mergeSort_perm (properties.map Prod.fst) (orderedBefore s.propertyOrder)
  rw [← hnames] at hsorted hperm
  generalize (s.orderedProperties properties).map Prod.fst = names at hsorted hperm
  generalize properties.map Prod.fst = declared at hnodup hsorted hperm ⊢
  generalize s.propertyOrder = order at hsorted ⊢
  refine ⟨names.filter (· ∈ order), names.filter (· ∉ order), ?_, hperm.filter _, ?_,
    hperm.filter _, ?_⟩
  · have hfirst := filter_append_filter_of_pairwise (p := fun a => decide (a ∈ order))
      (hsorted.imp fun h hb => decide_eq_true (mem_of_orderedBefore h.1 (of_decide_eq_true hb)))
    simpa using hfirst.symm
  · have hne : names.Pairwise (· ≠ ·) := hperm.nodup_iff.2 hnodup
    rw [List.pairwise_filter]
    refine (hsorted.and hne).imp fun ⟨⟨h, _⟩, hne⟩ ha hb => ?_
    have ha := of_decide_eq_true ha
    refine Nat.lt_of_le_of_ne ((orderedBefore_of_mem ha (of_decide_eq_true hb)).1 h) fun heq => ?_
    exact hne ((List.idxOf_inj ha).1 heq)
  · rw [List.pairwise_filter]
    refine hsorted.imp fun ⟨h, htie⟩ ha hb => ?_
    have ha := of_decide_eq_true ha
    have hb := of_decide_eq_true hb
    refine ⟨(orderedBefore_of_not_mem ha hb).1 h, fun heq => htie ?_⟩
    exact (orderedBefore_of_not_mem hb ha).2 (heq ▸ String.le_refl _)

end Schema

end SchemaTypes
