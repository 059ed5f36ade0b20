/-
  Combining attributes of many types, in whatever order they are grouped.

  `Grouping` is a way to combine a row of attributes two at a time.  Every category but
  the pattern is associative, so that grouping does not matter for it.  Patterns that differ
  cancel each other and leave no trace, so that a later pattern counts again: exactly where
  the outer two of three patterns differ, and all three are there, grouping matters.

  * `combine_assoc_iff` says when combining three attributes is associative;
  * `patternless_combined` says that the pattern does not matter for the rest;
  * `combined_eq_total` says that all that a grouping combines to depends on the members alone
    where these do not have different patterns.
-/
import Mathlib.Data.List.Perm.Subperm
import SchemaTypes.Attribute

namespace SchemaTypes

/-! ## Sets and maps -/

namespace SortedSet

variable {α : Type} [LT α] [LE α] [Std.IsLinearOrder α] [Std.LawfulOrderLT α] [DecidableLT α]

theorem empty_union (s : SortedSet α) : ∅ ∪ s = s := by
  refine SortedSet.ext fun a => ?_
  rw [mem_union]
  exact or_iff_right not_mem_empty

theorem union_empty (s : SortedSet α) : s ∪ ∅ = s := by
  refine SortedSet.ext fun a => ?_
  rw [mem_union]
  exact or_iff_left not_mem_empty

theorem union_assoc (s t u : SortedSet α) : s ∪ t ∪ u = s ∪ (t ∪ u) := by
  refine SortedSet.ext fun a => ?_
  simp only [mem_union]
  exact or_assoc

omit [DecidableLT α] [Std.IsLinearOrder α] in
theorem nodup_toList [Std.IsPreorder α] (s : SortedSet α) : s.toList.Nodup :=
  s.sorted.imp fun h he => absurd (he ▸ h) Std.lt_irrefl

omit [DecidableLT α] in
theorem size_le_of_subset {s t : SortedSet α} (h : ∀ a ∈ s, a ∈ t) : s.size ≤ t.size :=
  (List.subperm_of_subset s.nodup_toList fun a ha => h a ha).length_le

theorem size_le_union_left (s t : SortedSet α) : s.size ≤ (s ∪ t).size :=
  size_le_of_subset fun _ h => mem_union.2 (.inl h)

theorem size_le_union_right (s t : SortedSet α) : t.size ≤ (s ∪ t).size :=
  size_le_of_subset fun _ h => mem_union.2 (.inr h)

end SortedSet

namespace SortedMap

variable {κ ν : Type} [DecidableEq κ] [LT κ] [LE κ] [Std.IsLinearOrder κ] [Std.LawfulOrderLT κ]
  [DecidableLT κ]

theorem empty_merge (f : ν → ν → ν) (m : SortedMap κ ν) : (∅ : SortedMap κ ν).merge f m = m := by
  refine SortedMap.ext fun k => ?_
  rw [get?_merge, get?_empty]

omit [DecidableEq κ] in
theorem merge_empty (f : ν → ν → ν) (m : SortedMap κ ν) : m.merge f ∅ = m := rfl

theorem merge_assoc {f : ν → ν → ν} (hf : ∀ x y z, f (f x y) z = f x (f y z))
    (l m n : SortedMap κ ν) : (l.merge f m).merge f n = l.merge f (m.merge f n) := by
  refine SortedMap.ext fun k => ?_
  simp only [get?_merge]
  cases l.get? k <;> cases m.get? k <;> cases n.get? k <;> simp [hf]

theorem merge_first_assoc (l m n : SortedMap κ ν) :
    (l.merge (fun x _ => x) m).merge (fun x _ => x) n =
      l.merge (fun x _ => x) (m.merge (fun x _ => x) n) :=
  merge_assoc (fun _ _ _ => rfl) l m n

end SortedMap

/-! ## Bounds -/

namespace Double

/-- The first of the smallest of three numbers. -/
theorem min_assoc (x y z : Double) : (x.min y).min z = x.min (y.min z) := by
  cases x <;> cases y <;> cases z <;> simp [min, below, key?] <;> grind

/-- The first of the largest of three numbers. -/
theorem max_assoc (x y z : Double) : (x.max y).max z = x.max (y.max z) := by
  cases x <;> cases y <;> cases z <;> simp [max, below, key?] <;> grind

end Double

namespace Bounds

variable {f : Double → Double → Double}

theorem both_assoc (hf : ∀ x y z, f (f x y) z = f x (f y z)) (a b c : Option Double) :
    both f (both f a b) c = both f a (both f b c) := by
  cases a <;> cases b <;> cases c <;> simp [both, hf]

theorem either_assoc (hf : ∀ x y z, f (f x y) z = f x (f y z)) (a b c : Option Double) :
    either f (either f a b) c = either f a (either f b c) := by
  cases a <;> cases b <;> cases c <;> simp [either, hf]

theorem join_assoc (a b c : Bounds) : (a.join b).join c = a.join (b.join c) := by
  simp only [join, both_assoc Double.min_assoc, both_assoc Double.max_assoc]

theorem meet_assoc (a b c : Bounds) : (a.meet b).meet c = a.meet (b.meet c) := by
  simp only [meet, either_assoc Double.min_assoc, either_assoc Double.max_assoc]

end Bounds

/-! ## Names -/

namespace Names

/-- The union of names that are both given or both inferred. -/
def unite : Names → Names → Names
  | regular ns as i, regular ms bs _ => make (ns ∪ ms) (as ∪ bs) i
  | a, _ => tooMany a.areInferred

theorem add_of_same {a b : Names} (h : a.areInferred = b.areInferred) : a.add b = a.unite b := by
  cases a <;> cases b <;> simp_all [add, unite, areInferred]

/-- Given names beat inferred ones, else both count. -/
theorem add_eq (a b : Names) : a.add b =
    if a.areInferred = b.areInferred then a.unite b else if a.areInferred then b else a := by
  by_cases h : a.areInferred = b.areInferred
  · rw [if_pos h, add_of_same h]
  · rw [if_neg h]
    cases ha : a.areInferred with
    | false =>
      have hb : b.areInferred = true := Bool.of_not_eq_false fun hb => h (ha.trans hb.symm)
      simp [add, ha, hb]
    | true =>
      have hb : b.areInferred = false := Bool.of_not_eq_true fun hb => h (ha.trans hb.symm)
      simp [add, ha, hb]

@[simp] theorem areInferred_make (ns as : SortedSet String) (i : Bool) :
    (make ns as i).areInferred = i := by
  rw [make]
  split <;> rfl

@[simp] theorem areInferred_unite (a b : Names) : (a.unite b).areInferred = a.areInferred := by
  cases a <;> cases b <;> first | rfl | exact areInferred_make ..

/-- Names given up for their number stay so: the union has no fewer. -/
theorem make_unite (ns as ms bs : SortedSet String) (i j : Bool) :
    (make ns as i).unite (regular ms bs j) = make (ns ∪ ms) (as ∪ bs) i := by
  by_cases h : limit < ns.size
  · have h' : limit < (ns ∪ ms).size := Nat.lt_of_lt_of_le h (SortedSet.size_le_union_left ns ms)
    rw [make, if_pos h, make, if_pos h']
    rfl
  · rw [make, if_neg h]
    rfl

theorem unite_make (ns as ms bs : SortedSet String) (i j : Bool) :
    (regular ns as i).unite (make ms bs j) = make (ns ∪ ms) (as ∪ bs) i := by
  by_cases h : limit < ms.size
  · have h' : limit < (ns ∪ ms).size := Nat.lt_of_lt_of_le h (SortedSet.size_le_union_right ns ms)
    rw [make, if_pos h, make, if_pos h']
    rfl
  · rw [make, if_neg h]
    rfl

theorem unite_tooMany (a : Names) (i : Bool) : a.unite (tooMany i) = tooMany a.areInferred := by
  cases a <;> rfl

theorem unite_assoc (a b c : Names) : (a.unite b).unite c = a.unite (b.unite c) := by
  cases a with
  | tooMany i => rfl
  | regular ns as i =>
    cases b with
    | tooMany j => rfl
    | regular ms bs j =>
      cases c with
      | tooMany k =>
        rw [unite_tooMany, unite_tooMany, unite_tooMany, areInferred_unite]
      | regular ls cs k =>
        show (make (ns ∪ ms) (as ∪ bs) i).unite (regular ls cs k) =
          (regular ns as i).unite (make (ms ∪ ls) (bs ∪ cs) j)
        rw [make_unite, unite_make, SortedSet.union_assoc, SortedSet.union_assoc]

theorem add_assoc (a b c : Names) : (a.add b).add c = a.add (b.add c) := by
  simp only [add_eq]
  cases ha : a.areInferred <;> cases hb : b.areInferred <;> cases hc : c.areInferred <;>
    simp [ha, hb, hc, unite_assoc]

end Names

/-! ## Protocols and file extensions -/

theorem UriAttributes.union_assoc (a b c : UriAttributes) :
    (a.union b).union c = a.union (b.union c) := by
  simp only [UriAttributes.union, SortedSet.union_assoc]

namespace Attributes

/-! ## Values that may be missing -/

theorem mergeOptions_none {α : Type} (f : α → α → α) (a : Option α) :
    mergeOptions f a none = a := by
  cases a <;> rfl

theorem none_mergeOptions {α : Type} (f : α → α → α) (a : Option α) : mergeOptions f none a = a :=
  rfl

theorem mergeOptions_assoc {α : Type} {f : α → α → α} (hf : ∀ x y z, f (f x y) z = f x (f y z))
    (a b c : Option α) :
    mergeOptions f (mergeOptions f a b) c = mergeOptions f a (mergeOptions f b c) := by
  cases a <;> cases b <;> cases c <;> simp [mergeOptions, hf]

theorem boundsOf_assoc (how : Combination) (a b c : Bounds) :
    boundsOf how (boundsOf how a b) c = boundsOf how a (boundsOf how b c) := by
  cases how with
  | union => exact Bounds.join_assoc a b c
  | intersection => exact Bounds.meet_assoc a b c

/-! ## Patterns -/

theorem mergePatterns_none (p : Option String) : mergePatterns p none = p := by
  cases p <;> rfl

/-- A pattern that is left is one of the two. -/
theorem eq_or_eq_of_mergePatterns {p q : Option String} {r : String}
    (h : mergePatterns p q = some r) : p = some r ∨ q = some r := by
  cases p with
  | none => exact .inr h
  | some a =>
    cases q with
    | none => exact .inl h
    | some b =>
      rw [mergePatterns] at h
      split at h
      · exact .inl h
      · cases h

/-- Differing patterns cancel without a trace, so that a third one counts again. -/
theorem mergePatterns_assoc_iff (p q r : Option String) :
    mergePatterns (mergePatterns p q) r = mergePatterns p (mergePatterns q r) ↔
      p = none ∨ q = none ∨ r = none ∨ p = r := by
  cases p with
  | none => exact iff_of_true rfl (.inl rfl)
  | some a =>
    cases q with
    | none => exact iff_of_true rfl (.inr (.inl rfl))
    | some b =>
      cases r with
      | none => simp [mergePatterns_none]
      | some c =>
        simp only [mergePatterns]
        by_cases hab : a = b
        · subst hab
          by_cases hac : a = c <;> simp [hac]
        · by_cases hbc : b = c
          · subst hbc
            simp [hab]
          · simp [hab, hbc, eq_comm]

/-! ## Attributes -/

theorem empty_combine (how : Combination) (a : Attributes) : combine how ∅ a = a := by
  show combine how empty a = a
  simp only [combine, empty, SortedSet.empty_union, SortedMap.empty_merge, none_mergeOptions,
    Option.none_or, mergePatterns]

theorem combine_empty (how : Combination) (a : Attributes) : combine how a ∅ = a := by
  show combine how a empty = a
  simp only [combine, empty, SortedSet.union_empty, SortedMap.merge_empty, mergeOptions_none,
    Option.or_none, mergePatterns_none]

/-- Combining three attributes is associative exactly if the outer two have the same pattern
    or one of the three has none. -/
theorem combine_assoc_iff (how : Combination) (a b c : Attributes) :
    combine how (combine how a b) c = combine how a (combine how b c) ↔
      a.pattern = none ∨ b.pattern = none ∨ c.pattern = none ∨ a.pattern = c.pattern := by
  rw [← mergePatterns_assoc_iff]
  simp only [combine, Attributes.mk.injEq, SortedSet.union_assoc, Option.or_assoc,
    SortedMap.merge_assoc SortedSet.union_assoc, SortedMap.merge_first_assoc,
    mergeOptions_assoc Names.add_assoc, mergeOptions_assoc UriAttributes.union_assoc,
    mergeOptions_assoc (boundsOf_assoc how), true_and, and_true]

/-! ## Groupings -/

/-- A way to combine attributes two at a time. -/
inductive Grouping where
  | one (a : Attributes)
  | two (l r : Grouping)

namespace Grouping

/-- The attributes that are combined, from the first to the last. -/
def members : Grouping → List Attributes
  | one a => [a]
  | two l r => l.members ++ r.members

/-- What they combine to. -/
def combined (how : Combination) : Grouping → Attributes
  | one a => a
  | two l r => combine how (l.combined how) (r.combined how)

/-- The same grouping of other attributes. -/
def map (f : Attributes → Attributes) : Grouping → Grouping
  | one a => one (f a)
  | two l r => two (l.map f) (r.map f)

theorem members_map (f : Attributes → Attributes) (g : Grouping) :
    (g.map f).members = g.members.map f := by
  induction g with
  | one a => rfl
  | two l r ihl ihr => rw [map, members, ihl, ihr, members, List.map_append]

end Grouping

/-- Attributes from the last to the first, one at a time. -/
def total (how : Combination) (l : List Attributes) : Attributes := l.foldr (combine how) ∅

/-- No two of the attributes have patterns that differ. -/
def Agreeing (l : List Attributes) : Prop :=
  ∀ a ∈ l, ∀ b ∈ l, ∀ p ∈ a.pattern, ∀ q ∈ b.pattern, p = q

instance (l : List Attributes) : Decidable (Agreeing l) :=
  inferInstanceAs (Decidable (∀ a ∈ l, ∀ b ∈ l, ∀ p ∈ a.pattern, ∀ q ∈ b.pattern, p = q))

theorem Agreeing.subset {l m : List Attributes} (h : Agreeing m) (hs : ∀ a ∈ l, a ∈ m) :
    Agreeing l :=
  fun a ha b hb => h a (hs a ha) b (hs b hb)

/-- A pattern of the total is the pattern of a member. -/
theorem exists_pattern_of_total {how : Combination} {l : List Attributes} {p : String}
    (h : (total how l).pattern = some p) : ∃ a ∈ l, a.pattern = some p := by
  induction l with
  | nil => cases h
  | cons a l ih =>
    rcases eq_or_eq_of_mergePatterns h with h | h
    · exact ⟨a, List.mem_cons_self, h⟩
    · obtain ⟨b, hb, hp⟩ := ih h
      exact ⟨b, List.mem_cons_of_mem a hb, hp⟩

/-- Where patterns agree, the members of two rows may as well be combined row by row. -/
theorem total_append {how : Combination} {l m : List Attributes} (h : Agreeing (l ++ m)) :
    total how (l ++ m) = combine how (total how l) (total how m) := by
  induction l with
  | nil => exact (empty_combine how _).symm
  | cons a l ih =>
    have hassoc : combine how (combine how a (total how l)) (total how m) =
        combine how a (combine how (total how l) (total how m)) := by
      rw [combine_assoc_iff]
      cases hp : a.pattern with
      | none => exact .inl rfl
      | some p =>
        cases hq : (total how m).pattern with
        | none => exact .inr (.inr (.inl rfl))
        | some q =>
          obtain ⟨c, hc, hcq⟩ := exists_pattern_of_total hq
          exact .inr (.inr (.inr (congrArg some (h a (by simp) c (by simp [hc]) p hp q hcq))))
    show combine how a (total how (l ++ m)) = _
    rw [ih (h.subset fun b hb => List.mem_cons_of_mem a hb), ← hassoc]
    rfl

/-- Where patterns agree, what a grouping combines to depends on the members alone. -/
theorem combined_eq_total {how : Combination} {g : Grouping} (h : Agreeing g.members) :
    g.combined how = total how g.members := by
  induction g with
  | one a => exact (combine_empty how a).symm
  | two l r ihl ihr =>
    rw [Grouping.combined, ihl (h.subset fun a ha => List.mem_append_left _ ha),
      ihr (h.subset fun a ha => List.mem_append_right _ ha), ← total_append h]
    rfl

/-- The attributes but for the pattern. -/
def patternless (a : Attributes) : Attributes := { a with pattern := none }

/-- Patterns do not matter for the rest. -/
theorem patternless_combined (how : Combination) (g : Grouping) :
    (g.combined how).patternless = (g.map patternless).combined how := by
  induction g with
  | one a => rfl
  | two l r ihl ihr => rw [Grouping.map, Grouping.combined, Grouping.combined, ← ihl, ← ihr]; rfl

theorem agreeing_patternless (l : List Attributes) : Agreeing (l.map patternless) := by
  intro a ha b hb p hp
  obtain ⟨c, -, rfl⟩ := List.mem_map.1 ha
  cases hp

/-- **Attributes combine as in a monoid, patterns that differ apart.**  No attributes are the
    identity; three attributes combine associatively exactly if one of them has no pattern
    or the outer two have the same; and all that the members of a grouping combine to depends on the
    members and their order alone, the pattern as far as they agree on it. -/
theorem combine_monoid (how : Combination) :
    (∀ a : Attributes, combine how ∅ a = a ∧ combine how a ∅ = a) ∧
      (∀ a b c : Attributes, combine how (combine how a b) c = combine how a (combine how b c) ↔
        a.pattern = none ∨ b.pattern = none ∨ c.pattern = none ∨ a.pattern = c.pattern) ∧
      ∀ g g' : Grouping, g.members = g'.members →
        (g.combined how).patternless = (g'.combined how).patternless ∧
          (Agreeing g.members → g.combined how = g'.combined how) := by
  refine ⟨fun a => ⟨empty_combine how a, combine_empty how a⟩, combine_assoc_iff how,
    fun g g' h => ⟨?_, fun hg => ?_⟩⟩
  · have hm : (g.map patternless).members = (g'.map patternless).members := by
      rw [Grouping.members_map, Grouping.members_map, h]
    rw [patternless_combined, patternless_combined,
      combined_eq_total (Grouping.members_map .. ▸ agreeing_patternless _),
      combined_eq_total (Grouping.members_map .. ▸ agreeing_patternless _), hm]
  · rw [combined_eq_total hg, combined_eq_total (h ▸ hg), h]

/-- Only a pattern. -/
def ofPattern (p : String) : Attributes := { empty with pattern := some p }

/-- A given name beats the inferred ones on both sides of it, whatever is combined first, and
    the pattern stays that the last member shares with the first. -/
theorem combine_monoid_plates :
    let plate : Attributes := ofNames (.single "plate" true) ∪ ofPattern "^[A-Z]+$"
    let given : Attributes := named "Plate" false
    let last : Attributes := ofNames (.single "last" true) ∪ ofPattern "^[A-Z]+$"
    let left : Grouping := .two (.two (.one plate) (.one given)) (.one last)
    let right : Grouping := .two (.one plate) (.two (.one given) (.one last))
    left.members = right.members ∧ Agreeing left.members ∧
      left.combined .intersection = right.combined .intersection ∧
        left.combined .intersection = named "Plate" false ∪ ofPattern "^[A-Z]+$" := by
  intro plate given last left right
  have hm : left.members = right.members := rfl
  have ha : Agreeing left.members := by decide
  exact ⟨hm, ha, ((combine_monoid .intersection).2.2 left right hm).2 ha, by decide⟩

/-! ## Patterns that differ -/

/-- **A conflict between patterns is forgotten**: the pattern that comes after it is kept, while
    two patterns that agree and then meet the conflicting one leave none. -/
theorem not_forall_combine_assoc : ¬ ∀ (how : Combination) (a b c : Attributes),
    combine how (combine how a b) c = combine how a (combine how b c) := by
  intro h
  have hassoc := h .union (ofPattern "^a$") (ofPattern "^b$") (ofPattern "^b$")
  exact absurd hassoc (by decide)

end Attributes

end SchemaTypes
