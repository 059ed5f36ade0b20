/-
  What a conversion visits.

  A conversion does not tell which schemas it comes to, but one with a wire does: it stops with a
  given error as soon as it comes to a schema of some kind.  If it stops so, then whatever the error
  is; and if it does not, then it does as a conversion without a wire.

  * `Fails`: steps that never succeed;
  * `Wired`: a step, and two versions of it with wires;
  * `wired_itemTypes`, `wired_objectType` and the others: one lemma for each part of a type;
  * `typeOfUntil`, `Visits`: conversion with a wire, and what it tells;
  * `visits_or_run_eq`, `error_of_visits`: a wire is tripped or changes nothing, and a conversion
    that visits a schema which fails by itself fails.
-/
import SchemaTypes.Proofs.Ensures
import SchemaTypes.Proofs.Registration

namespace SchemaTypes.Conversion

variable {α β : Type} {m m₁ m₂ : ConversionM α} {convert convert₁ convert₂ : Converter}
  {s : Schema} {l : Location} {a : Attributes} {producers : List Producer} {bad : Schema → Bool}
  {e e' : ConversionError} {H : Prop}

/-! ## Steps that fail -/

/-- A step that succeeds on no state. -/
def Fails (m : ConversionM α) : Prop := ∀ st, Ensures m st fun _ _ => False

theorem fails_throw : Fails (throw e : ConversionM α) := fun _ => ensures_throw

theorem Fails.bind (h : Fails m) (f : α → ConversionM β) : Fails (m >>= f) :=
  fun st => (h st).seq fun _ _ => False.elim

theorem fails_bind {f : α → ConversionM β} (h : ∀ x, Fails (f x)) : Fails (m >>= f) :=
  fun _ => Ensures.bind fun x st' _ => h x st'

/-- What is read of a schema may decide that a step fails. -/
theorem fails_bind_lift {x : Except ConversionError α} {f : α → ConversionM β}
    (h : ∀ y, x = .ok y → Fails (f y)) : Fails (liftM x >>= f) :=
  fun _ => (ensures_lift fun _ => id).seq fun y st' hy => h y hy st'

theorem Fails.optional {c : Prop} [Decidable c] {m : ConversionM NodeId}
    {f : List NodeId → ConversionM β} (hc : c) (h : Fails m) :
    Fails (if c then do let rs ← pure [← m]; f rs else do let rs ← pure []; f rs) := by
  rw [if_pos hc]
  exact h.bind _

theorem fails_optional {c : Prop} [Decidable c] {m : ConversionM NodeId}
    {f : List NodeId → ConversionM β} (h : ∀ rs, Fails (f rs)) :
    Fails (if c then do let rs ← pure [← m]; f rs else do let rs ← pure []; f rs) := by
  split
  · exact fails_bind fun _ => fails_bind h
  · exact fails_bind h

/-! ## Steps with wires -/

/-- Two versions of a step with wires that give the errors `e` and `e'`.  If no wire is tripped, both
    do as the step does; else both give their errors, where the step fails if schemas with wires do,
    as `H` tells. -/
def Wired (e e' : ConversionError) (H : Prop) (m m₁ m₂ : ConversionM α) : Prop :=
  ∀ st, (m₁.run st = m.run st ∧ m₂.run st = m.run st) ∨
    (∃ st', m₁.run st = (.error e, st') ∧ m₂.run st = (.error e', st')) ∧
      (H → Ensures m st fun _ _ => False)

namespace Wired

theorem refl : Wired e e' H m m m := fun _ => .inl ⟨rfl, rfl⟩

theorem bind {f f₁ f₂ : α → ConversionM β} (h : Wired e e' H m m₁ m₂)
    (hf : ∀ x, Wired e e' H (f x) (f₁ x) (f₂ x)) :
    Wired e e' H (m >>= f) (m₁ >>= f₁) (m₂ >>= f₂) := by
  intro st
  simp only [run_bind]
  rcases h st with ⟨h₁, h₂⟩ | ⟨⟨st', h₁, h₂⟩, hfails⟩
  · rw [h₁, h₂]
    cases hm : m.run st with
    | mk x st₁ =>
      cases x with
      | error e₀ => exact .inl ⟨rfl, rfl⟩
      | ok x =>
        refine (hf x st₁).imp_right fun ⟨htripped, hfails⟩ => ⟨htripped, fun hH => ?_⟩
        refine Ensures.bind fun y st₂ hy => ?_
        cases hm.symm.trans hy
        exact hfails hH
  · rw [h₁, h₂]
    exact .inr ⟨⟨st', rfl, rfl⟩, fun hH => (hfails hH).seq fun _ _ => False.elim⟩

theorem map {f : α → β} (h : Wired e e' H m m₁ m₂) :
    Wired e e' H (f <$> m) (f <$> m₁) (f <$> m₂) := by
  simp only [map_eq_pure_bind]
  exact h.bind fun _ => refl

theorem optional {c : Prop} [Decidable c] {m m₁ m₂ : ConversionM NodeId}
    {f f₁ f₂ : List NodeId → ConversionM β} (h : Wired e e' H m m₁ m₂)
    (hf : ∀ rs, Wired e e' H (f rs) (f₁ rs) (f₂ rs)) :
    Wired e e' H (if c then do let rs ← pure [← m]; f rs else do let rs ← pure []; f rs)
      (if c then do let rs ← pure [← m₁]; f₁ rs else do let rs ← pure []; f₁ rs)
      (if c then do let rs ← pure [← m₂]; f₂ rs else do let rs ← pure []; f₂ rs) := by
  split
  · exact h.bind fun _ => refl.bind hf
  · exact refl.bind hf

end Wired

/-- Two versions of a converter with wires. -/
abbrev ConvertsWired (e e' : ConversionError) (H : Prop) (convert convert₁ convert₂ : Converter) :
    Prop :=
  ∀ v l a, Wired e e' H (convert v l a) (convert₁ v l a) (convert₂ v l a)

/-! ## Parts of types -/

section

variable (h : ConvertsWired e e' H convert convert₁ convert₂)

include h

theorem wired_itemTypes {items : List Json} {i : Nat} :
    Wired e e' H (itemTypes convert l a i items) (itemTypes convert₁ l a i items)
      (itemTypes convert₂ l a i items) := by
  induction items generalizing i with
  | nil => exact .refl
  | cons v items ih =>
    unfold itemTypes
    exact Wired.refl.bind fun _ => (h _ _ _).bind fun _ => ih.bind fun _ => .refl

theorem wired_itemType :
    Wired e e' H (itemType convert s l a) (itemType convert₁ s l a) (itemType convert₂ s l a) := by
  unfold itemType
  split
  · exact .refl
  · exact (wired_itemTypes h).bind fun _ => .refl
  · split
    · exact h _ _ _
    · exact .refl

theorem wired_arrayType : Wired e e' H (arrayType convert s l a) (arrayType convert₁ s l a)
    (arrayType convert₂ s l a) := by
  unfold arrayType
  exact (wired_itemType h).bind fun _ => .refl

theorem wired_declaredProperties {required : List String} {fields : Json.Fields}
    {ps : Properties} :
    Wired e e' H (declaredProperties convert l required fields ps)
      (declaredProperties convert₁ l required fields ps)
      (declaredProperties convert₂ l required fields ps) := by
  induction fields generalizing ps with
  | nil => exact .refl
  | cons field fields ih =>
    unfold declaredProperties
    exact Wired.refl.bind fun _ => (h _ _ _).bind fun _ => ih

theorem wired_additionalType :
    Wired e e' H (additionalType convert s l a) (additionalType convert₁ s l a)
      (additionalType convert₂ s l a) := by
  unfold additionalType
  split
  · exact .refl
  · exact .refl
  · exact .refl
  · exact Wired.refl.bind fun _ => (h _ _ _).map

theorem wired_objectType : Wired e e' H (objectType convert s l a) (objectType convert₁ s l a)
    (objectType convert₂ s l a) := by
  unfold objectType
  refine Wired.refl.bind fun _ => Wired.refl.bind fun _ => ?_
  refine (wired_declaredProperties h).bind fun _ => ?_
  exact (wired_additionalType h).bind fun _ => .refl

theorem wired_ownUnion {allowed : Option (List Primitive)} {produced : List Produced} :
    Wired e e' H (ownUnion convert s l allowed produced a)
      (ownUnion convert₁ s l allowed produced a) (ownUnion convert₂ s l allowed produced a) := by
  unfold ownUnion
  refine Wired.refl.bind fun _ => Wired.optional .refl fun _ => ?_
  exact (wired_arrayType h).optional fun _ => (wired_objectType h).optional fun _ => .refl

theorem wired_targetType {ref : Json} : Wired e e' H (targetType convert l a ref)
    (targetType convert₁ l a ref) (targetType convert₂ l a ref) := by
  unfold targetType
  split
  · exact Wired.refl.bind fun _ => h _ _ _
  · exact .refl

theorem wired_operandTypes {operation : String} {operands : Json} :
    Wired e e' H (operandTypes convert l a operation operands)
      (operandTypes convert₁ l a operation operands)
      (operandTypes convert₂ l a operation operands) := by
  unfold operandTypes
  split
  · exact wired_itemTypes h
  · exact .refl

theorem wired_oneOfType {included : List Primitive} {r : NodeId} {operands : Json} :
    Wired e e' H (oneOfType convert producers s l included a r operands)
      (oneOfType convert₁ producers s l included a r operands)
      (oneOfType convert₂ producers s l included a r operands) := by
  unfold oneOfType
  exact (wired_operandTypes h).bind fun _ => .refl

theorem wired_anyOfType {operands : Json} : Wired e e' H (anyOfType convert l a operands)
    (anyOfType convert₁ l a operands) (anyOfType convert₂ l a operands) := by
  unfold anyOfType
  exact (wired_operandTypes h).bind fun _ => .refl

omit h in
theorem wired_ofKeyword {keyword : String} {f f₁ f₂ : Json → ConversionM (List NodeId)}
    (hf : ∀ v, Wired e e' H (f v) (f₁ v) (f₂ v)) :
    Wired e e' H (ofKeyword s keyword f) (ofKeyword s keyword f₁) (ofKeyword s keyword f₂) := by
  unfold ofKeyword
  split
  · exact hf _
  · exact .refl

theorem wired_schemaType :
    Wired e e' H (schemaType convert producers s l a) (schemaType convert₁ producers s l a)
      (schemaType convert₂ producers s l a) := by
  unfold schemaType
  refine Wired.refl.bind fun _ => Wired.refl.bind fun _ => ?_
  refine Wired.refl.bind fun _ => Wired.refl.bind fun _ => ?_
  refine (wired_ownUnion h).optional fun _ => ?_
  refine (wired_ofKeyword fun _ => (wired_targetType h).bind fun _ => .refl).bind fun _ => ?_
  refine (wired_ofKeyword fun _ => wired_operandTypes h).bind fun _ => ?_
  refine (wired_ofKeyword fun _ => (wired_oneOfType h).bind fun _ => .refl).bind fun _ => ?_
  refine (wired_ofKeyword fun _ => (wired_anyOfType h).bind fun _ => .refl).bind fun _ => ?_
  exact .refl

end

/-! ## Schemas -/

/-- Makes a type for a schema that has none, by a converter for what lies in it. -/
def newType (producers : List Producer) (convert : Converter) : Converter := fun v l a =>
  match v with
  | .bool true => build (·.primitive .any ∅)
  | .bool false => throw (.falseSchema l.canonical)
  | v => do
    let s : Schema ← checkObject v l.canonical
    let l ← l.withId (s.get? "$id")
    schemaType convert producers s l a

/-- Enters the types that a converter makes, each once. -/
def entering (make : Converter) : Converter := fun v l a => do
  match ← known? l.canonical with
  | some r => return r
  | none =>
    let r ← make v l a
    enter l.canonical r
    return r

theorem typeOf_succ (depth : Nat) :
    typeOf producers (depth + 1) = entering (newType producers (typeOf producers depth)) := by
  funext v l a
  unfold typeOf entering newType
  refine bind_congr fun known => ?_
  cases known with
  | some r => rfl
  | none =>
    cases v with
    | bool b => cases b <;> rfl
    | _ => simp only [bind_assoc]

theorem wired_newType (h : ConvertsWired e e' H convert convert₁ convert₂) :
    ConvertsWired e e' H (newType producers convert) (newType producers convert₁)
      (newType producers convert₂) := by
  intro v l a
  unfold newType
  split
  · exact .refl
  · exact .refl
  · exact Wired.refl.bind fun _ => Wired.refl.bind fun _ => wired_schemaType h

theorem wired_entering (h : ConvertsWired e e' H convert convert₁ convert₂) :
    ConvertsWired e e' H (entering convert) (entering convert₁) (entering convert₂) := by
  intro v l a
  unfold entering
  refine Wired.refl.bind fun known => ?_
  split
  · exact .refl
  · exact (h v l a).bind fun _ => .refl

/-! ## Conversion with a wire -/

/-- Puts a wire at the schemas of some kind: conversion stops with an error there. -/
def stopping (bad : Schema → Bool) (e : ConversionError) (make : Converter) : Converter :=
  fun v l a => if v.object?.any bad then throw e else make v l a

/-- The type of a schema, unless a wire is tripped on the way. -/
def typeOfUntil (producers : List Producer) (bad : Schema → Bool) (e : ConversionError) :
    Nat → Converter
  | 0 => typeOf producers 0
  | depth + 1 =>
    -- A schema that has a type already is not visited again: the wire is behind that question.
    entering (stopping bad e (newType producers (typeOfUntil producers bad e depth)))

/-- Adds top levels by a converter. -/
def addTopLevelsBy (convert : Converter) : List (String × Reference) → ConversionM Unit
  | [] => return
  | (name, r) :: rest => do
    let (v, l) ← resolving (Resolver.resolveTopLevel r)
    let t ← convert v l (.named name false)
    discard <| build (·.addTopLevel name t)
    addTopLevelsBy convert rest

theorem addTopLevels_eq (depth : Nat) (references : List (String × Reference)) :
    addTopLevels producers depth references =
      addTopLevelsBy (typeOf producers depth) references := by
  induction references with
  | nil => rfl
  | cons entry references ih =>
    unfold addTopLevels addTopLevelsBy
    rw [ih]

/-- No type is ever made for the schemas of some kind. -/
def Hopeless (producers : List Producer) (bad : Schema → Bool) : Prop :=
  ∀ s, bad s = true → ∀ convert l a, Fails (schemaType convert producers s l a)

theorem Hopeless.fails_newType (h : Hopeless producers bad) {v : Json}
    (hv : v.object?.any bad = true) : Fails (newType producers convert v l a) := by
  obtain ⟨s, hs, hbad⟩ := (Option.any_eq_true ..).1 hv
  cases v with
  | object fields =>
    cases hs
    refine fails_bind_lift fun s' hs' => fails_bind fun l' => ?_
    cases hs'
    exact h s hbad convert l' a
  | _ => cases hs

theorem wired_stopping
    (h : ConvertsWired e e' (Hopeless producers bad) convert convert₁ convert₂) :
    ConvertsWired e e' (Hopeless producers bad) (newType producers convert)
      (stopping bad e (newType producers convert₁))
      (stopping bad e' (newType producers convert₂)) := by
  intro v l a
  unfold stopping
  split
  · next hv => exact fun st => .inr ⟨⟨st, rfl, rfl⟩, fun hbad => hbad.fails_newType hv st⟩
  · exact wired_newType h v l a

theorem wired_typeOf (depth : Nat) :
    ConvertsWired e e' (Hopeless producers bad) (typeOf producers depth)
      (typeOfUntil producers bad e depth) (typeOfUntil producers bad e' depth) := by
  induction depth with
  | zero => exact fun _ _ _ => .refl
  | succ depth ih =>
    rw [typeOf_succ]
    exact wired_entering (wired_stopping ih)

theorem wired_addTopLevels (e e' : ConversionError) (depth : Nat)
    (references : List (String × Reference)) :
    Wired e e' (Hopeless producers bad) (addTopLevels producers depth references)
      (addTopLevelsBy (typeOfUntil producers bad e depth) references)
      (addTopLevelsBy (typeOfUntil producers bad e' depth) references) := by
  rw [addTopLevels_eq]
  induction references with
  | nil => exact .refl
  | cons entry references ih =>
    unfold addTopLevelsBy
    exact Wired.refl.bind fun x => (wired_typeOf depth _ _ _).bind fun _ =>
      Wired.refl.bind fun _ => ih

/-! ## Visits -/

variable {depth : Nat} {references : List (String × Reference)} {st : Conversion}

/-- The conversion of top levels visits a schema of some kind: with a wire at those, it stops with
    the error of the wire, whichever that is. -/
def Visits (producers : List Producer) (depth : Nat) (references : List (String × Reference))
    (st : Conversion) (bad : Schema → Bool) : Prop :=
  ∀ e, ∃ st', (addTopLevelsBy (typeOfUntil producers bad e depth) references).run st =
    (.error e, st')

/-- A wire that makes a difference is tripped. -/
theorem visits_of_run_ne
    (h : (addTopLevelsBy (typeOfUntil producers bad e depth) references).run st ≠
      (addTopLevels producers depth references).run st) :
    Visits producers depth references st bad := by
  intro e'
  rcases wired_addTopLevels e e' depth references st with ⟨heq, -⟩ | ⟨⟨st', -, h'⟩, -⟩
  · exact absurd heq h
  · exact ⟨st', h'⟩

/-- **A wire is tripped, or it changes nothing**: what is not visited makes no difference. -/
theorem visits_or_run_eq (producers : List Producer) (depth : Nat)
    (references : List (String × Reference)) (st : Conversion) (bad : Schema → Bool) :
    Visits producers depth references st bad ∨
      ∀ e, (addTopLevelsBy (typeOfUntil producers bad e depth) references).run st =
        (addTopLevels producers depth references).run st :=
  or_iff_not_imp_left.2 fun hnot _ => by_contra fun hne => hnot (visits_of_run_ne hne)

/-- **A conversion that visits a schema of some kind fails**, if no type is ever made for these. -/
theorem error_of_visits (hbad : Hopeless producers bad)
    (h : Visits producers depth references st bad) :
    ∃ e st', (addTopLevels producers depth references).run st = (.error e, st') := by
  cases hrun : (addTopLevels producers depth references).run st with
  | mk x st' =>
    cases x with
    | error e => exact ⟨e, st', rfl⟩
    | ok u =>
      -- The wire would have to be tripped, and the conversion to fail as the schema does.
      let e : ConversionError := .falseSchema ⟨none, []⟩
      obtain ⟨st'', hstop⟩ := h e
      rcases wired_addTopLevels e e depth references st with ⟨heq, -⟩ | ⟨-, hfails⟩
      · cases (hstop.symm.trans heq).trans hrun
      · exact (hfails hbad u st' hrun).elim

end SchemaTypes.Conversion

namespace SchemaTypes.SchemaInput

/-- A run visits a schema of some kind, when it has gathered the references of its sources. -/
def Visits (i : SchemaInput) (b : Builder) (bad : Schema → Bool) : Prop :=
  i.sources ≠ [] ∧ ∃ g, i.gatherAll.run i.start = (.ok ⟨⟩, g) ∧
    Conversion.Visits i.producers (Conversion.depthFor i.size g.topLevels.size)
      g.topLevels.entries ⟨g.resolver, b, ∅⟩ bad

/-- So does a run fail that visits such a schema. -/
theorem error_of_visits {i : SchemaInput} {b : Builder} {bad : Schema → Bool}
    (hbad : Conversion.Hopeless i.producers bad) (h : i.Visits b bad) :
    ∃ e, (i.addTypes b).1 = .error (.conversion e) := by
  obtain ⟨hne, g, hgathered, hvisits⟩ := h
  obtain ⟨e, c, hrun⟩ := Conversion.error_of_visits hbad hvisits
  have hconverted : (convertAll { i with topLevels := g.topLevels }).run ⟨g.resolver, b, ∅⟩ =
      (.error e, c) := hrun
  unfold start at hgathered
  unfold addTypes
  rw [if_neg fun hnil => hne (List.isEmpty_iff.1 hnil)]
  dsimp only
  rw [hgathered]
  dsimp only
  rw [hconverted]
  exact ⟨e, rfl⟩

end SchemaTypes.SchemaInput
