/-
  Required and declared properties.

  A schema declares properties and requires names, which it need not declare; and a property may
  declare itself required.

  * `Schema.Requires`, `Schema.Declares`: what both keywords say where they are well-shaped
    (`required_eq_ok_iff`, `properties_eq_ok_iff`);
  * `Schema.mem_allRequired`, `Schema.filter_allRequired`: all required names, and those of them
    that are not declared.
-/
import Mathlib.Data.List.Basic
import Mathlib.Tactic.Tauto
import SchemaTypes.Proofs.Following
import SchemaTypes.Keywords

namespace SchemaTypes

namespace Schema

variable {s : Schema} {place : Reference} {required : List String} {fields : Json.Fields}
  {name : String} {e : String × Json}

/-- The keyword `required` is well-shaped and lists just these names; a truth value lists none. -/
def Requires (s : Schema) (names : List String) : Prop :=
  s.get? "required" = some (.array (names.map .string)) ∨
    names = [] ∧ (s.get? "required" = none ∨ ∃ b, s.get? "required" = some (.bool b))

/-- The keyword `properties` is well-shaped and declares just these properties. -/
def Declares (s : Schema) (fields : Json.Fields) : Prop :=
  s.get? "properties" = some (.object fields) ∨ fields = [] ∧ s.get? "properties" = none

theorem mapM_eq_ok_iff {α β : Type} {f : α → Except ConversionError β} {g : β → α}
    (hf : ∀ x y, f x = .ok y ↔ x = g y) {xs : List α} {ys : List β} :
    xs.mapM f = .ok ys ↔ xs = ys.map g := by
  induction xs generalizing ys with
  | nil => cases ys <;> simp [pure, Except.pure]
  | cons x xs ih =>
    rw [List.mapM_cons, except_bind_eq_ok]
    constructor
    · rintro ⟨y, hy, h⟩
      obtain ⟨rest, hrest, hys⟩ := except_bind_eq_ok.1 h
      cases hys
      rw [List.map_cons, (hf x y).1 hy, ih.1 hrest]
    · intro h
      cases ys with
      | nil => cases h
      | cons y ys =>
        obtain ⟨hx, hxs⟩ := List.cons.inj h
        exact ⟨y, (hf x y).2 hx, except_bind_eq_ok.2 ⟨ys, ih.2 hxs, rfl⟩⟩

theorem required_eq_ok_iff : s.required place = .ok required ↔ s.Requires required := by
  unfold Schema.required Requires
  split
  · next h => simp [h, eq_comm]
  · next b h => simp [h, eq_comm]
  · next items h =>
    rw [mapM_eq_ok_iff (g := Json.string) fun item name => by cases item <;> simp [Json.string?]]
    simp [h]
  · next v hbool harray h =>
    simp only [h, reduceCtorEq, false_iff, not_or, not_and, not_exists]
    refine ⟨fun hv => harray _ (Option.some.inj hv), fun _ => ⟨nofun, fun b hv => ?_⟩⟩
    exact hbool b (Option.some.inj hv)

theorem properties_eq_ok_iff : s.properties place = .ok fields ↔ s.Declares fields := by
  unfold Schema.properties Declares
  split
  · next h => simp [h, eq_comm]
  · next h => simp [h, eq_comm]
  · next v hobject h =>
    simp only [h, reduceCtorEq, false_iff, not_or, not_and]
    exact ⟨fun hv => hobject _ (Option.some.inj hv), fun _ => nofun⟩

theorem Requires.unique {names : List String} (h : s.Requires required) (h' : s.Requires names) :
    required = names :=
  Except.ok.inj ((required_eq_ok_iff.2 h).symm.trans (@required_eq_ok_iff s ⟨none, []⟩ _ |>.2 h'))

theorem Declares.unique {more : Json.Fields} (h : s.Declares fields) (h' : s.Declares more) :
    fields = more :=
  Except.ok.inj
    ((properties_eq_ok_iff.2 h).symm.trans (@properties_eq_ok_iff s ⟨none, []⟩ _ |>.2 h'))

/-- A property that declares itself required. -/
def RequiresItself (e : String × Json) : Prop := e.2.field? "required" = some (.bool true)

theorem allRequired_cons_of_requiresItself (h : RequiresItself e) :
    allRequired required (e :: fields) =
      allRequired (if e.1 ∈ required then required else required ++ [e.1]) fields := by
  rw [allRequired, List.foldl_cons, h]
  rfl

theorem allRequired_cons_of_not (h : ¬RequiresItself e) :
    allRequired required (e :: fields) = allRequired required fields := by
  rw [allRequired, List.foldl_cons]
  split
  · next htrue => exact absurd htrue h
  · rfl

/-- A required name is listed, or a property of that name declares itself required. -/
theorem mem_allRequired : name ∈ allRequired required fields ↔
    name ∈ required ∨ ∃ e ∈ fields, e.1 = name ∧ RequiresItself e := by
  induction fields generalizing required with
  | nil => simp [allRequired]
  | cons e fields ih =>
    by_cases h : RequiresItself e
    · rw [allRequired_cons_of_requiresItself h, ih]
      by_cases hmem : e.1 ∈ required
      · have hname : e.1 = name → name ∈ required := fun heq => heq ▸ hmem
        simp only [hmem, if_true, List.exists_mem_cons_iff, h, and_true]
        tauto
      · simp only [hmem, if_false, List.exists_mem_cons_iff, h, and_true, List.mem_append,
          List.mem_singleton, or_assoc, eq_comm]
    · rw [allRequired_cons_of_not h, ih]
      simp [h]

/-- Properties that declare themselves required come behind the names that are listed. -/
theorem exists_allRequired (required : List String) (fields : Json.Fields) :
    ∃ more, allRequired required fields = required ++ more ∧ more ⊆ fields.map Prod.fst := by
  induction fields generalizing required with
  | nil => exact ⟨[], by simp [allRequired], by simp⟩
  | cons e fields ih =>
    by_cases h : RequiresItself e ∧ e.1 ∉ required
    · obtain ⟨more, hmore, hsub⟩ := ih (required ++ [e.1])
      refine ⟨e.1 :: more, ?_, List.cons_subset_cons _ hsub⟩
      rw [allRequired_cons_of_requiresItself h.1, if_neg h.2, hmore]
      simp
    · obtain ⟨more, hmore, hsub⟩ := ih required
      refine ⟨more, ?_, List.subset_cons_of_subset _ hsub⟩
      by_cases hself : RequiresItself e
      · rw [allRequired_cons_of_requiresItself hself,
          if_pos (Decidable.by_contra fun hnot => h ⟨hself, hnot⟩), hmore]
      · rw [allRequired_cons_of_not hself, hmore]

theorem Declares.nodup (h : s.Declares fields) (hkeys : (Json.object s).KeysDistinct) :
    (fields.map Prod.fst).Nodup := by
  rcases h with h | ⟨rfl, -⟩
  · have hfields : (Json.object fields).KeysDistinct :=
      Json.FieldsKeysDistinct.of_mem hkeys.2 (mem_of_lookup h)
    exact hfields.1
  · exact List.nodup_nil

theorem filter_allRequired (required : List String) (fields : Json.Fields) :
    (allRequired required fields).filter (· ∉ fields.map Prod.fst) =
      required.filter (· ∉ fields.map Prod.fst) := by
  obtain ⟨more, hmore, hsub⟩ := exists_allRequired required fields
  have hnone : more.filter (· ∉ fields.map Prod.fst) = [] := by
    rw [List.filter_eq_nil_iff]
    intro name hname
    simpa using hsub hname
  rw [hmore, List.filter_append, hnone, List.append_nil]

end Schema

end SchemaTypes
