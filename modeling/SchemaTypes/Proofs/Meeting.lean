/-
  The meet of descriptions is a semilattice.

  What an intersection admits is described by meeting the descriptions of its members one after the
  other.  Fields of one side decide over fields of the other there: integers go through where the
  other side has doubles, formats where it has all strings.

  * `SameAs`: descriptions that differ in order and repetition of alternatives alone;
  * `meet_comm`, `meet_assoc`, `meet_self`: the laws of the meet;
  * `Content`: descriptions up to `SameAs`, where `meetAll` gives the greatest lower bound
    (`le_content_meetAll_iff`);
  * `meeting_ignores_order`: **so neither order nor grouping nor repetition of the members counts.**
-/
import Mathlib.Data.Finset.Dedup
import Mathlib.Data.Finset.Lattice.Lemmas
import Mathlib.Data.Option.NAry
import Mathlib.Order.WithBot
import SchemaTypes.Proofs.Descriptions

namespace SchemaTypes

/-! ## Parts of descriptions -/

namespace Texts

theorem meet_comm (s t : Texts) : s.meet t = t.meet s := by
  cases s <;> cases t <;> simp only [meet, only.injEq]
  exact SortedSet.ext fun a => by rw [SortedSet.mem_inter, SortedSet.mem_inter, and_comm]

theorem meet_assoc (s t u : Texts) : (s.meet t).meet u = s.meet (t.meet u) := by
  cases s <;> cases t <;> cases u <;> simp only [meet, only.injEq]
  exact SortedSet.ext fun a => by simp only [SortedSet.mem_inter, and_assoc]

theorem meet_self (s : Texts) : s.meet s = s := by
  cases s <;> simp only [meet, only.injEq]
  exact SortedSet.ext fun a => by rw [SortedSet.mem_inter, and_self]

end Texts

namespace Alternatives

/-- The sets of a list, in any order and however often. -/
def sets (a : Option Alternatives) : Option (Finset (SortedSet NodeId)) := a.map List.toFinset

theorem toFinset_foldl_append (a b : Alternatives) :
    (b.foldl (fun l s => if s ∈ l then l else l ++ [s]) a).toFinset =
      a.toFinset ∪ b.toFinset := by
  induction b generalizing a with
  | nil => simp
  | cons s b ih =>
    rw [List.foldl_cons, ih]
    by_cases hs : s ∈ a <;> simp [hs]

/-- A meet has the sets of both sides, if both are there. -/
theorem sets_meet (a b : Option Alternatives) :
    sets (meet a b) = Option.map₂ (· ∪ ·) (sets a) (sets b) := by
  cases a with
  | none => rfl
  | some a =>
    cases b with
    | none => rfl
    | some b => exact congrArg some (toFinset_foldl_append a b)

theorem sets_meet_comm (a b : Option Alternatives) : sets (meet a b) = sets (meet b a) := by
  rw [sets_meet, sets_meet]
  exact Option.map₂_comm Finset.union_comm

theorem sets_meet_assoc (a b c : Option Alternatives) :
    sets (meet (meet a b) c) = sets (meet a (meet b c)) := by
  simp only [sets_meet]
  exact Option.map₂_assoc Finset.union_assoc

theorem sets_meet_self (a : Option Alternatives) : sets (meet a a) = sets a := by
  rw [sets_meet]
  cases sets a with
  | none => rfl
  | some s => exact congrArg some (Finset.union_self s)

end Alternatives

namespace Admitted

open Alternatives (sets)

variable {a a' b b' : Admitted}

/-- An integer is left where both sides have numbers, and one of them has integers. -/
theorem integer_meet_iff : (a.meet b).integer = true ↔
    (a.integer ∨ a.double) ∧ (b.integer ∨ b.double) ∧ (a.integer ∨ b.integer) := by
  simp only [meet, Bool.or_eq_true, Bool.and_eq_true]
  grind

theorem double_meet_iff : (a.meet b).double = true ↔ a.double ∧ b.double := by
  simp only [meet, Bool.and_eq_true]

/-! ## Laws -/

/-- The same kinds, strings and formats are admitted, with the same sets of alternatives. -/
structure SameAs (a b : Admitted) : Prop where
  null : a.null = b.null
  bool : a.bool = b.bool
  integer : a.integer = b.integer
  double : a.double = b.double
  texts : a.texts = b.texts
  formats : a.formats = b.formats
  arrays : sets a.arrays = sets b.arrays
  objects : sets a.objects = sets b.objects

theorem sameAs_equivalence : Equivalence SameAs where
  refl _ := ⟨rfl, rfl, rfl, rfl, rfl, rfl, rfl, rfl⟩
  symm h := ⟨h.null.symm, h.bool.symm, h.integer.symm, h.double.symm, h.texts.symm,
    h.formats.symm, h.arrays.symm, h.objects.symm⟩
  trans h h' := ⟨h.null.trans h'.null, h.bool.trans h'.bool, h.integer.trans h'.integer,
    h.double.trans h'.double, h.texts.trans h'.texts, h.formats.trans h'.formats,
    h.arrays.trans h'.arrays, h.objects.trans h'.objects⟩

theorem SameAs.meet (h : a.SameAs a') (h' : b.SameAs b') : (a.meet b).SameAs (a'.meet b') where
  null := by simp only [Admitted.meet, h.null, h'.null]
  bool := by simp only [Admitted.meet, h.bool, h'.bool]
  integer := by simp only [Admitted.meet, h.integer, h'.integer, h.double, h'.double]
  double := by simp only [Admitted.meet, h.double, h'.double]
  texts := by simp only [Admitted.meet, h.texts, h'.texts]
  formats := by simp only [Admitted.meet, h.texts, h'.texts, h.formats, h'.formats]
  arrays := by simp only [Admitted.meet, Alternatives.sets_meet, h.arrays, h'.arrays]
  objects := by simp only [Admitted.meet, Alternatives.sets_meet, h.objects, h'.objects]

theorem meet_comm (a b : Admitted) : (a.meet b).SameAs (b.meet a) where
  null := Bool.and_comm ..
  bool := Bool.and_comm ..
  integer := by
    rw [Bool.eq_iff_iff, integer_meet_iff, integer_meet_iff]
    grind
  double := Bool.and_comm ..
  texts := Texts.meet_comm ..
  formats := SortedSet.ext fun f => by
    rw [mem_formats_meet_iff, mem_formats_meet_iff, and_comm,
      or_comm (a := a.texts = .all ∧ f ∈ b.formats)]
  arrays := Alternatives.sets_meet_comm ..
  objects := Alternatives.sets_meet_comm ..

theorem meet_assoc (a b c : Admitted) : ((a.meet b).meet c).SameAs (a.meet (b.meet c)) where
  null := Bool.and_assoc ..
  bool := Bool.and_assoc ..
  integer := by
    rw [Bool.eq_iff_iff]
    simp only [integer_meet_iff, double_meet_iff]
    grind
  double := Bool.and_assoc ..
  texts := Texts.meet_assoc ..
  formats := SortedSet.ext fun f => by
    simp only [mem_formats_meet_iff, texts_meet, Texts.meet_eq_all_iff]
    grind
  arrays := Alternatives.sets_meet_assoc ..
  objects := Alternatives.sets_meet_assoc ..

theorem meet_self (a : Admitted) : (a.meet a).SameAs a where
  null := Bool.and_self _
  bool := Bool.and_self _
  integer := by
    rw [Bool.eq_iff_iff, integer_meet_iff]
    grind
  double := Bool.and_self _
  texts := Texts.meet_self _
  formats := SortedSet.ext fun f => by
    rw [mem_formats_meet_iff]
    grind
  arrays := Alternatives.sets_meet_self _
  objects := Alternatives.sets_meet_self _

/-! ## The semilattice -/

/-- Descriptions up to order and repetition of alternatives. -/
abbrev Content := Quotient (⟨SameAs, sameAs_equivalence⟩ : Setoid Admitted)

instance : Min Content := ⟨Quotient.map₂ meet fun _ _ h _ _ h' => h.meet h'⟩

instance : SemilatticeInf Content :=
  SemilatticeInf.mk'
    (Quotient.ind₂ fun a b => Quotient.sound (meet_comm a b))
    (fun x y z => Quotient.inductionOn₃ x y z fun a b c => Quotient.sound (meet_assoc a b c))
    (Quotient.ind fun a => Quotient.sound (meet_self a))

/-- What a description comes to; everything is above all others. -/
def content : Option Admitted → WithTop Content
  | none => ⊤
  | some a => ((Quotient.mk _ a : Content) : WithTop Content)

theorem content_meet (a b : Admitted) :
    content (some (a.meet b)) = content (some a) ⊓ content (some b) := rfl

theorem content_eq_iff {x y : Option Admitted} :
    content x = content y ↔ Option.Rel SameAs x y := by
  cases x with
  | none =>
    cases y with
    | none => exact iff_of_true rfl .none
    | some b => exact ⟨nofun, nofun⟩
  | some a =>
    cases y with
    | none => exact ⟨nofun, nofun⟩
    | some b =>
      refine ⟨fun h => .some (Quotient.exact (WithTop.coe_inj.1 h)), ?_⟩
      rintro (h | -)
      exact WithTop.coe_inj.2 (Quotient.sound h)

/-- **A meet of many descriptions is their greatest lower bound.** -/
theorem le_content_meetAll_iff {l : List (Option Admitted)} {x : WithTop Content} :
    x ≤ content (meetAll l) ↔ ∀ d ∈ l, x ≤ content d := by
  have hsome : (∀ d ∈ l, x ≤ content d) ↔ ∀ a, some a ∈ l → x ≤ content (some a) := by
    refine ⟨fun h a => h (some a), fun h d hd => ?_⟩
    cases d with
    | none => exact le_top
    | some a => exact h a hd
  rw [hsome]
  cases hmeet : meetAll l with
  | some d =>
    refine meetAll_iff (P := fun a => x ≤ content (some a)) (fun a b => ?_) hmeet
    rw [content_meet, le_inf_iff]
  | none =>
    exact iff_of_true le_top fun a ha => nomatch eq_none_of_meetAll hmeet _ ha

theorem rel_meetAll_of_mem_iff {l l' : List (Option Admitted)} (h : ∀ d, d ∈ l ↔ d ∈ l') :
    Option.Rel SameAs (meetAll l) (meetAll l') := by
  refine content_eq_iff.1 (eq_of_forall_le_iff fun x => ?_)
  simp only [le_content_meetAll_iff, h]

/-- Groups may be met first, and their meets then. -/
theorem rel_meetAll_groups {groups : List (List (Option Admitted))} {l : List (Option Admitted)}
    (h : ∀ d, d ∈ l ↔ ∃ group ∈ groups, d ∈ group) :
    Option.Rel SameAs (meetAll (groups.map meetAll)) (meetAll l) := by
  refine content_eq_iff.1 (eq_of_forall_le_iff fun x => ?_)
  simp only [le_content_meetAll_iff, List.forall_mem_map, h]
  exact ⟨fun hx d ⟨group, hgroup, hd⟩ => hx group hgroup d hd,
    fun hx group hgroup d hd => hx d ⟨group, hgroup, hd⟩⟩

/-- **The description of an intersection depends on the set of its members alone.**  The meet of
    descriptions is commutative, associative and idempotent; so members may come in any order, in
    any groups and however often, and the same kinds, strings and formats are admitted, with the
    same sets of alternatives. -/
theorem meeting_ignores_order :
    (∀ a b : Admitted, (a.meet b).SameAs (b.meet a)) ∧
    (∀ a b c : Admitted, ((a.meet b).meet c).SameAs (a.meet (b.meet c))) ∧
    (∀ a : Admitted, (a.meet a).SameAs a) ∧
    (∀ l l' : List (Option Admitted), (∀ d, d ∈ l ↔ d ∈ l') →
      Option.Rel SameAs (meetAll l) (meetAll l')) ∧
    (∀ (groups : List (List (Option Admitted))) (l : List (Option Admitted)),
      (∀ d, d ∈ l ↔ ∃ group ∈ groups, d ∈ group) →
        Option.Rel SameAs (meetAll (groups.map meetAll)) (meetAll l)) ∧
    ∀ (g : Graph) (forced : Bool) (ms ms' : List NodeId), (∀ m, m ∈ ms ↔ m ∈ ms') →
      Option.Rel SameAs (meetAll (ms.map (g.admitted forced)))
        (meetAll (ms'.map (g.admitted forced))) := by
  refine ⟨meet_comm, meet_assoc, meet_self, fun l l' => rel_meetAll_of_mem_iff,
    fun groups l => rel_meetAll_groups, fun g forced ms ms' h => rel_meetAll_of_mem_iff fun d => ?_⟩
  simp only [List.mem_map, h]

/-- Entries are integers, any strings or rows of integers on one side, and doubles, dates or rows of
    doubles on the other. -/
def entries : Graph where
  nodes := #[.new .integer, .new .double, .new (.string none), .new (.formatted .date),
    .new (.array 0), .new (.array 1), .new (.union (.ofList [0, 2, 4])),
    .new (.union (.ofList [1, 3, 5])), .new (.intersection (.ofList [6, 7]))]
  topLevels := .ofList [("Entry", 8)]

/-- Integers, dates and rows are left on both ways; the alternatives for the items of the rows come
    in another order. -/
theorem meeting_ignores_order_entries :
    let both : Admitted := { nothing with integer := true, formats := .singleton .date }
    (∀ m, m ∈ [6, 7, 6] ↔ m ∈ [7, 6]) ∧
      meetAll ([6, 7, 6].map (entries.admitted false)) =
        some { both with arrays := some [.singleton 0, .singleton 1] } ∧
      meetAll ([7, 6].map (entries.admitted false)) =
        some { both with arrays := some [.singleton 1, .singleton 0] } ∧
      Option.Rel SameAs (meetAll ([6, 7, 6].map (entries.admitted false)))
        (meetAll ([7, 6].map (entries.admitted false))) := by
  intro both
  have hmem : ∀ m, m ∈ [6, 7, 6] ↔ m ∈ [7, 6] := by simp
  obtain ⟨-, -, -, -, -, hmembers⟩ := meeting_ignores_order
  exact ⟨hmem, by decide +kernel, by decide +kernel, hmembers entries false _ _ hmem⟩

end Admitted

end SchemaTypes
