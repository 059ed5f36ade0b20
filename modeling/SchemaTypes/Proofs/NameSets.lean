/-
  Names as a semilattice.

  Three rules overlap where names are joined: given names beat inferred ones, names of one kind are
  united, and too many of them are given up.

  * `Names.Obtainable`: the names that operations give, which are those of bounded number
    (`obtainable_iff_bounded`);
  * `add_comm`, `add_of_given`, `tooMany_add`: what each rule comes to;
  * `Obtainable.semilattice`: **joining names is associative, commutative and idempotent**;
  * `joinProposals_perm`: so it does not matter in which order names are proposed to a node.
-/
import Mathlib.Data.List.Nodup
import SchemaTypes.Proofs.Following
import SchemaTypes.Proofs.NameFlow

namespace SchemaTypes

theorem SortedSet.union_comm {α : Type} [LT α] [LE α] [Std.IsLinearOrder α]
    [Std.LawfulOrderLT α] [DecidableLT α] (s t : SortedSet α) : s ∪ t = t ∪ s :=
  SortedSet.ext fun a => by rw [mem_union, mem_union, or_comm]

namespace Names

variable {a b : Names} {i : Bool}

/-! ## Names that operations give -/

/-- What the operations on names give. -/
inductive Obtainable : Names → Prop
  | make (ns as : SortedSet String) (i : Bool) : Obtainable (make ns as i)
  | single (name : String) (i : Bool) : Obtainable (single name i)
  | add {a b : Names} (ha : Obtainable a) (hb : Obtainable b) : Obtainable (a.add b)
  | makeInferred {a : Names} (ha : Obtainable a) : Obtainable a.makeInferred
  | singularize {a : Names} (ha : Obtainable a) : Obtainable a.singularize

theorem Obtainable.bounded (h : a.Obtainable) : a.Bounded := by
  induction h with
  | make ns as i => exact bounded_make ns as i
  | single name i => exact bounded_single name i
  | add _ _ iha ihb => exact iha.add ihb
  | makeInferred _ ih => exact ih.makeInferred
  | singularize _ _ => exact bounded_singularize _

/-- There are sets of any number of names. -/
theorem exists_lt_size (n : Nat) : ∃ ns : SortedSet String, n < ns.size := by
  have hnodup : ((List.range (n + 1)).map toString).Nodup :=
    List.nodup_range.map fun _ _ => Json.toString_injective
  have hle := (List.subperm_of_subset hnodup fun name hname =>
    (SortedSet.mem_ofList (l := (List.range (n + 1)).map toString)).2 hname).length_le
  rw [List.length_map, List.length_range] at hle
  exact ⟨_, hle⟩

theorem obtainable_tooMany (i : Bool) : (tooMany i).Obtainable := by
  obtain ⟨ns, hns⟩ := exists_lt_size limit
  have hmake : Names.make ns ∅ i = tooMany i := if_pos hns
  exact hmake ▸ .make ns ∅ i

/-- Names can be obtained exactly if there are no more of them than are kept. -/
theorem obtainable_iff_bounded : a.Obtainable ↔ a.Bounded := by
  refine ⟨Obtainable.bounded, fun h => ?_⟩
  cases a with
  | regular ns as i =>
    have hmake : Names.make ns as i = regular ns as i := if_neg (Nat.not_lt.2 h)
    exact hmake ▸ .make ns as i
  | tooMany i => exact obtainable_tooMany i

/-! ## Laws -/

theorem unite_comm (h : a.areInferred = b.areInferred) : a.unite b = b.unite a := by
  cases a with
  | regular ns as i =>
    cases b with
    | regular ms bs j =>
      obtain rfl : i = j := h
      rw [unite, unite, SortedSet.union_comm ns, SortedSet.union_comm as]
    | tooMany j => exact congrArg tooMany h
  | tooMany i =>
    rw [unite_tooMany, ← h]
    rfl

theorem add_comm (a b : Names) : a.add b = b.add a := by
  by_cases h : a.areInferred = b.areInferred
  · rw [add_of_same h, add_of_same h.symm, unite_comm h]
  · rw [add_eq, add_eq, if_neg h, if_neg (Ne.symm h)]
    cases ha : a.areInferred <;> cases hb : b.areInferred <;> simp_all

/-- Given names beat inferred ones. -/
theorem add_of_given (ha : a.areInferred = false) (hb : b.areInferred = true) : a.add b = a := by
  rw [add_eq, if_neg (by simp [ha, hb]), ha]
  rfl

/-- Names that were given up stay so. -/
theorem tooMany_add (h : b.areInferred = i) : (tooMany i).add b = tooMany i := by
  have hsame : (tooMany i).areInferred = b.areInferred := h.symm
  rw [add_of_same hsame]
  rfl

/-- **Names that operations give form a semilattice**: joining them is associative, commutative and
    idempotent.  Given names absorb inferred ones, too many names absorb all that are given or
    inferred as they are, and whatever is kept is no more than a thousand names. -/
theorem Obtainable.semilattice :
    (∀ a b c : Names, a.Obtainable → b.Obtainable → c.Obtainable →
      (a.add b).add c = a.add (b.add c)) ∧
    (∀ a b : Names, a.Obtainable → b.Obtainable → a.add b = b.add a) ∧
    (∀ a : Names, a.Obtainable → a.add a = a) ∧
    (∀ a b : Names, a.Obtainable → b.Obtainable → a.areInferred = false → b.areInferred = true →
      a.add b = a ∧ b.add a = a) ∧
    (∀ (i : Bool) (b : Names), b.Obtainable → b.areInferred = i →
      (tooMany i).add b = tooMany i ∧ b.add (tooMany i) = tooMany i) ∧
    ∀ (ns as : SortedSet String) (i : Bool), (regular ns as i).Obtainable → ns.size ≤ 1000 := by
  refine ⟨fun a b c _ _ _ => add_assoc a b c, fun a b _ _ => add_comm a b,
    fun a ha => add_self ha.bounded, fun a b _ _ ha hb => ?_, fun i b _ hb => ?_,
    fun ns as i h => h.bounded⟩
  · exact ⟨add_of_given ha hb, (add_comm b a).trans (add_of_given ha hb)⟩
  · exact ⟨tooMany_add hb, (add_comm b _).trans (tooMany_add hb)⟩

/-- Names of cats and dogs are joined in either order; a given name stays beside them, and too many
    inferred names take them in. -/
theorem semilattice_pets :
    let cat := (single "Cats" false).singularize
    let dog := (single "Dogs" true).singularize
    let pet := single "Pet" false
    (cat.Obtainable ∧ dog.Obtainable ∧ pet.Obtainable) ∧
      cat.add dog = regular (.ofList ["Cat", "Dog"]) ∅ true ∧ dog.add cat = cat.add dog ∧
      (cat.add pet).add dog = cat.add (pet.add dog) ∧ (cat.add pet).add dog = pet ∧
      (tooMany true).add (cat.add dog) = tooMany true := by
  intro cat dog pet
  have hcat : cat.Obtainable := .singularize (.single "Cats" false)
  have hdog : dog.Obtainable := .singularize (.single "Dogs" true)
  have hpet : pet.Obtainable := .single "Pet" false
  obtain ⟨hassoc, hcomm, -, hgiven, htooMany, -⟩ := Obtainable.semilattice
  refine ⟨⟨hcat, hdog, hpet⟩, by decide +kernel, hcomm dog cat hdog hcat,
    hassoc cat pet dog hcat hpet hdog, ?_, ?_⟩
  · rw [(hgiven pet cat hpet hcat rfl (by decide +kernel)).2]
    exact (hgiven pet dog hpet hdog rfl (by decide +kernel)).1
  · exact (htooMany true _ (hcat.add hdog) (by decide +kernel)).1

end Names

/-! ## Proposals -/

namespace Graph

/-- Proposing to one node and then to another is the same the other way round. -/
theorem insertWith_add_comm (m : SortedMap NodeId Names) (p q : NodeId × Names) :
    (m.insertWith Names.add p.1 p.2).insertWith Names.add q.1 q.2 =
      (m.insertWith Names.add q.1 q.2).insertWith Names.add p.1 p.2 := by
  refine SortedMap.ext fun r => ?_
  simp only [SortedMap.get?_insertWith]
  by_cases heq : p.1 = q.1
  · by_cases hr : r = q.1
    · cases hm : m.get? q.1 with
      | none => simp [heq, hr, hm, Names.add_comm p.2]
      | some names => simp [heq, hr, hm, Names.add_assoc, Names.add_comm p.2]
    · simp [heq, hr]
  · by_cases hp : r = p.1
    · simp [hp, heq]
    · simp [hp, Ne.symm heq]

/-- **The order of proposals does not matter.** -/
theorem joinProposals_perm {l l' : List (NodeId × Names)} (h : l.Perm l') :
    joinProposals l = joinProposals l' :=
  h.foldl_eq' (fun p _ q _ m => insertWith_add_comm m p q) ∅

end Graph

end SchemaTypes
