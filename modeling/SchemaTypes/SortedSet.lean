/-
  Finite sets kept as strictly increasing lists.

  * `SortedSet α` carries the proof that its list is strictly increasing, so a
    set has one representation and `SortedSet.ext` makes sets with the same
    members equal;
  * `mem_insert`, `mem_union`, `mem_inter`, `mem_filter`, `mem_map` and
    `mem_ofList` describe every operation by its members.

  The order is the type's own `<`; on strings that is the order of code points.
-/

namespace SchemaTypes

/-- A finite set, listed in strictly increasing order. -/
structure SortedSet (α : Type) [LT α] where
  /-- The members in order. -/
  toList : List α
  sorted : toList.Pairwise (· < ·)
  deriving DecidableEq

namespace SortedSet

variable {α : Type} [LT α]

instance : Membership α (SortedSet α) := ⟨fun s a => a ∈ s.toList⟩

instance [DecidableEq α] (a : α) (s : SortedSet α) : Decidable (a ∈ s) :=
  inferInstanceAs (Decidable (a ∈ s.toList))

@[simp] theorem mem_toList {a : α} {s : SortedSet α} : a ∈ s.toList ↔ a ∈ s := Iff.rfl

/-- The set without members. -/
def empty : SortedSet α := ⟨[], .nil⟩

instance : EmptyCollection (SortedSet α) := ⟨empty⟩

instance : Inhabited (SortedSet α) := ⟨∅⟩

@[simp] theorem not_mem_empty {a : α} : a ∉ (∅ : SortedSet α) := List.not_mem_nil

/-- The set of one member. -/
def singleton (a : α) : SortedSet α := ⟨[a], List.pairwise_singleton _ a⟩

@[simp] theorem mem_singleton {a b : α} : a ∈ singleton b ↔ a = b := List.mem_singleton

/-- The number of members. -/
def size (s : SortedSet α) : Nat := s.toList.length

/-- Whether the set has no members. -/
def isEmpty (s : SortedSet α) : Bool := s.toList.isEmpty

/-- The members that satisfy `p`. -/
def filter (p : α → Bool) (s : SortedSet α) : SortedSet α :=
  ⟨s.toList.filter p, s.sorted.filter p⟩

@[simp] theorem mem_filter {p : α → Bool} {a : α} {s : SortedSet α} :
    a ∈ s.filter p ↔ a ∈ s ∧ p a = true := List.mem_filter

/-- The members of both sets. -/
def inter [DecidableEq α] (s t : SortedSet α) : SortedSet α := s.filter (· ∈ t)

@[simp] theorem mem_inter [DecidableEq α] {a : α} {s t : SortedSet α} :
    a ∈ s.inter t ↔ a ∈ s ∧ a ∈ t := by
  simp [inter]

/-! ## Insertion -/

/-- Inserts `a` before the first larger member, unless it is there already. -/
def insertSorted [DecidableLT α] (a : α) : List α → List α
  | [] => [a]
  | b :: l => if a < b then a :: b :: l else if b < a then b :: insertSorted a l else b :: l

variable [LE α] [Std.IsLinearOrder α] [Std.LawfulOrderLT α]

theorem mem_insertSorted [DecidableLT α] {a b : α} {l : List α} :
    b ∈ insertSorted a l ↔ b = a ∨ b ∈ l := by
  induction l with
  | nil => simp [insertSorted]
  | cons c l ih =>
    simp only [insertSorted]
    split
    · simp
    · next hac =>
      split
      · simp only [List.mem_cons, ih]
        exact or_left_comm
      · next hca =>
        have h : a = c := Std.le_antisymm (Std.not_lt.1 hca) (Std.not_lt.1 hac)
        simp [h]

theorem pairwise_insertSorted [DecidableLT α] {a : α} {l : List α}
    (h : l.Pairwise (· < ·)) : (insertSorted a l).Pairwise (· < ·) := by
  induction l with
  | nil => exact List.pairwise_singleton _ _
  | cons c l ih =>
    have hc := List.pairwise_cons.1 h
    simp only [insertSorted]
    split
    · next hac =>
      refine List.pairwise_cons.2 ⟨fun x hx => ?_, h⟩
      rcases List.mem_cons.1 hx with rfl | hx
      · exact hac
      · exact Std.lt_trans hac (hc.1 x hx)
    · split
      · next hca =>
        refine List.pairwise_cons.2 ⟨fun x hx => ?_, ih hc.2⟩
        rcases mem_insertSorted.1 hx with rfl | hx
        · exact hca
        · exact hc.1 x hx
      · exact h

variable [DecidableLT α]

/-- Adds a member. -/
def insert (s : SortedSet α) (a : α) : SortedSet α :=
  ⟨insertSorted a s.toList, pairwise_insertSorted s.sorted⟩

@[simp] theorem mem_insert {a b : α} {s : SortedSet α} : b ∈ s.insert a ↔ b = a ∨ b ∈ s :=
  mem_insertSorted

/-- Adds every element of a list. -/
def insertMany (s : SortedSet α) (l : List α) : SortedSet α := l.foldl insert s

@[simp] theorem mem_insertMany {a : α} {l : List α} {s : SortedSet α} :
    a ∈ s.insertMany l ↔ a ∈ l ∨ a ∈ s := by
  induction l generalizing s with
  | nil => simp [insertMany]
  | cons b l ih =>
    rw [show s.insertMany (b :: l) = (s.insert b).insertMany l from rfl, ih]
    simp only [mem_insert, List.mem_cons]
    exact ⟨fun h => h.elim (fun h => .inl (.inr h)) (·.elim (fun h => .inl (.inl h)) .inr),
      fun h => h.elim (·.elim (fun h => .inr (.inl h)) .inl) (fun h => .inr (.inr h))⟩

/-- The members of a list. -/
def ofList (l : List α) : SortedSet α := (∅ : SortedSet α).insertMany l

@[simp] theorem mem_ofList {a : α} {l : List α} : a ∈ ofList l ↔ a ∈ l := by
  simp [ofList]

/-- The members of either set. -/
def union (s t : SortedSet α) : SortedSet α := s.insertMany t.toList

instance : Union (SortedSet α) := ⟨union⟩

@[simp] theorem mem_union {a : α} {s t : SortedSet α} : a ∈ s ∪ t ↔ a ∈ s ∨ a ∈ t := by
  rw [show s ∪ t = s.insertMany t.toList from rfl, mem_insertMany, mem_toList]
  exact or_comm

omit [DecidableLT α] [LE α] [Std.IsLinearOrder α] [Std.LawfulOrderLT α] in
/-- The images of the members. -/
def map {β : Type} [LT β] [LE β] [Std.IsLinearOrder β] [Std.LawfulOrderLT β] [DecidableLT β]
    (f : α → β) (s : SortedSet α) : SortedSet β :=
  ofList (s.toList.map f)

omit [DecidableLT α] [LE α] [Std.IsLinearOrder α] [Std.LawfulOrderLT α] in
@[simp] theorem mem_map {β : Type} [LT β] [LE β] [Std.IsLinearOrder β] [Std.LawfulOrderLT β]
    [DecidableLT β] {f : α → β} {s : SortedSet α} {b : β} :
    b ∈ s.map f ↔ ∃ a ∈ s, f a = b := by
  simp [map]

/-! ## Extensionality -/

omit [DecidableLT α] in
theorem eq_of_pairwise_of_mem_iff {l m : List α} (hl : l.Pairwise (· < ·))
    (hm : m.Pairwise (· < ·)) (h : ∀ a, a ∈ l ↔ a ∈ m) : l = m := by
  induction l generalizing m with
  | nil =>
    cases m with
    | nil => rfl
    | cons b m => exact absurd ((h b).2 (by simp)) (by simp)
  | cons a l ih =>
    cases m with
    | nil => exact absurd ((h a).1 (by simp)) (by simp)
    | cons b m =>
      have ha := List.pairwise_cons.1 hl
      have hb := List.pairwise_cons.1 hm
      have hab : a = b := by
        rcases List.mem_cons.1 ((h a).1 (by simp)) with e | hm'
        · exact e
        rcases List.mem_cons.1 ((h b).2 (by simp)) with e | hl'
        · exact e.symm
        exact absurd (Std.lt_trans (hb.1 a hm') (ha.1 b hl')) Std.lt_irrefl
      subst hab
      congr 1
      refine ih ha.2 hb.2 fun x => ⟨fun hx => ?_, fun hx => ?_⟩
      · rcases List.mem_cons.1 ((h x).1 (List.mem_cons_of_mem _ hx)) with e | hx'
        · exact absurd (e ▸ ha.1 x hx) Std.lt_irrefl
        · exact hx'
      · rcases List.mem_cons.1 ((h x).2 (List.mem_cons_of_mem _ hx)) with e | hx'
        · exact absurd (e ▸ hb.1 x hx) Std.lt_irrefl
        · exact hx'

omit [DecidableLT α] in
/-- Sets with the same members are equal. -/
@[ext] theorem ext {s t : SortedSet α} (h : ∀ a, a ∈ s ↔ a ∈ t) : s = t := by
  cases s with
  | mk l hl =>
    cases t with
    | mk m hm =>
      have : l = m := eq_of_pairwise_of_mem_iff hl hm h
      subst this
      rfl

end SortedSet

end SchemaTypes
