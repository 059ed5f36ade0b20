/-
  Malformed keywords.

  Each keyword that conversion checks asks for values of some shape (`Keyword.admits`).  Whether
  `required`, `properties` and `items` are read depends on the others: only a schema that describes
  objects or arrays (`Schema.describes`), other than by listing values, has a type made of them.

  * `Schema.misfit`, `Schema.reads`, `Schema.malformed`: a keyword of another shape, a keyword that
    is read, and a keyword that is both;
  * `hopeless_malformed`: each part of a type fails where a keyword that it is made of is malformed,
    and the type fails with any of its parts;
  * `malformed_fails`: a run that visits a malformed schema fails;
  * `not_forall_misfit_fails`: a run may succeed that visits a misfit which is not read.
-/
import SchemaTypes.Proofs.Documents
import SchemaTypes.Proofs.Included
import SchemaTypes.Proofs.Requirements
import SchemaTypes.Proofs.Visits

namespace SchemaTypes

/-! ## Shapes -/

/-- A keyword whose value conversion checks. -/
inductive Keyword where
  | type | required | properties | items | ref | allOf | oneOf | anyOf
  deriving DecidableEq, Repr

namespace Keyword

def all : List Keyword := [type, required, properties, items, ref, allOf, oneOf, anyOf]

/-- How the keyword is written. -/
def text : Keyword → String
  | type => "type"
  | required => "required"
  | properties => "properties"
  | items => "items"
  | ref => "$ref"
  | allOf => "allOf"
  | oneOf => "oneOf"
  | anyOf => "anyOf"

/-- Whether a value is the name of a type. -/
def isTypeName (v : Json) : Bool := (v.string?.bind Primitive.ofName?).isSome

/-- Whether a value has the shape that a keyword asks for. -/
def admits : Keyword → Json → Bool
  | type, .array names => !names.isEmpty && names.all isTypeName
  | type, v => isTypeName v
  | required, .bool _ => true
  | required, .array names => names.all fun name => name.string?.isSome
  | required, _ => false
  | properties, v => v.object?.isSome
  | items, v => v.isSchema || v.array?.isSome
  | ref, v => v.string?.isSome
  | allOf, v | oneOf, v | anyOf, v => v.array?.isSome

theorem mem_all (k : Keyword) : k ∈ all := by
  cases k <;> decide

end Keyword

namespace Schema

variable {s : Schema} {k : Keyword} {v : Json} {t : Primitive} {place : Reference}
  {allowed : Option (List Primitive)}

/-- The keyword is there, with a value of another shape than it asks for. -/
def misfits (s : Schema) (k : Keyword) : Bool := (s.get? k.text).any fun v => !k.admits v

/-- The schema describes values of a type, and not by listing them: it names the type, or names no
    types at all. -/
def describes (s : Schema) (t : Primitive) : Bool :=
  s.enumValues?.isNone && !s.has "const" &&
    match s.get? "type" with
    | none => true
    | some (.array names) => names.any fun name => name.string? == some t.name
    | some v => v.string? == some t.name

/-- The keyword is read, if it is there. -/
def reads (s : Schema) : Keyword → Bool
  | .required | .properties => s.describes .object
  | .items => s.describes .array
  | _ => true

/-- Some keyword has a value of another shape than it asks for. -/
def misfit (s : Schema) : Bool := Keyword.all.any s.misfits

/-- Some keyword is read and has a value of another shape than it asks for. -/
def malformed (s : Schema) : Bool := Keyword.all.any fun k => s.misfits k && s.reads k

theorem misfits_iff : s.misfits k = true ↔ ∃ v, s.get? k.text = some v ∧ k.admits v = false := by
  simp [misfits, Option.any_eq_true]

theorem malformed_iff : s.malformed = true ↔ ∃ k, s.misfits k = true ∧ s.reads k = true := by
  simp [malformed, List.any_eq_true, Keyword.mem_all]

/-! ## Reading keywords -/

theorem typeNames_eq_ok_iff {names : List String} : typeNames place v = .ok names ↔
    v = .array (names.map .string) ∨ ∃ name, names = [name] ∧ v = .string name := by
  unfold typeNames
  split
  · next name => simp [eq_comm]
  · next items =>
    rw [mapM_eq_ok_iff (g := Json.string) fun item name => by cases item <;> simp [Json.string?]]
    simp
  · next v hstring harray =>
    simp only [reduceCtorEq, false_iff, not_or, not_exists, not_and]
    exact ⟨harray _, fun name _ => hstring name⟩

/-- The keyword `type` is well-shaped and lists just these types, or is not there. -/
def Allows (s : Schema) : Option (List Primitive) → Prop
  | none => s.get? "type" = none
  | some types =>
    (types ≠ [] ∧ s.get? "type" = some (.array (types.map fun t => .string t.name))) ∨
      ∃ t, types = [t] ∧ s.get? "type" = some (.string t.name)

theorem allows_of_types? (h : s.types? place = .ok allowed) : s.Allows allowed := by
  unfold types? at h
  split at h
  · next hnone =>
    cases h
    exact hnone
  next v hv =>
  obtain ⟨names, hnames, h⟩ := except_bind_eq_ok.1 h
  split at h
  · cases h
  next hne =>
  obtain ⟨types, htypes, h⟩ := except_bind_eq_ok.1 h
  cases h
  have hnames' : names = types.map Primitive.name := by
    refine (mapM_eq_ok_iff fun name t => ?_).1 htypes
    rw [← Primitive.ofName?_eq_some_iff]
    cases Primitive.ofName? name <;> simp
  subst hnames'
  rcases typeNames_eq_ok_iff.1 hnames with rfl | ⟨name, hname, rfl⟩
  · refine .inl ⟨fun hnil => hne (by rw [hnil]; rfl), ?_⟩
    rw [hv, List.map_map]
    rfl
  · obtain ⟨t, ht, rfl⟩ := List.map_eq_singleton_iff.1 hname
    exact .inr ⟨t, ht, hv⟩

theorem Allows.fits (h : s.Allows allowed) : s.misfits .type = false := by
  unfold misfits Keyword.text
  cases allowed with
  | none => rw [show s.get? "type" = none from h]; rfl
  | some types =>
    rcases h with ⟨hne, h⟩ | ⟨t, -, h⟩
    · simp [h, Keyword.admits, Keyword.isTypeName, Json.string?, hne]
    · simp [h, Keyword.admits, Keyword.isTypeName, Json.string?]

theorem Allows.isOpenTo_eq (h : s.Allows allowed) (t : Primitive) :
    s.isOpenTo allowed t = s.describes t := by
  unfold isOpenTo describes
  congr 1
  cases allowed with
  | none => rw [show s.get? "type" = none from h]
  | some types =>
    rcases h with ⟨-, h⟩ | ⟨t', rfl, h⟩
    · rw [h, Bool.eq_iff_iff]
      simp [Json.string?, Primitive.name_inj]
    · rw [h, Bool.eq_iff_iff]
      simp [Json.string?, Primitive.name_inj, eq_comm (a := t)]

theorem Requires.fits {required : List String} (h : s.Requires required) :
    s.misfits .required = false := by
  unfold misfits Keyword.text
  rcases h with h | ⟨-, h | ⟨b, h⟩⟩ <;> simp [h, Keyword.admits, Json.string?]

theorem Declares.fits {fields : Json.Fields} (h : s.Declares fields) :
    s.misfits .properties = false := by
  unfold misfits Keyword.text
  rcases h with h | ⟨-, h⟩ <;> simp [h, Keyword.admits, Json.object?]

/-- A schema that has one of these keywords needs a union of its own. -/
theorem constrainsValues_of_misfits (hk : k ∈ [Keyword.required, .properties, .items])
    (h : s.misfits k = true) : s.constrainsValues = true := by
  obtain ⟨v, hv, -⟩ := misfits_iff.1 h
  have hhas : s.has k.text = true := by rw [has, hv]; rfl
  have hmem : k.text ∈ ["type", "properties", "additionalProperties", "items", "required",
      "const"] := by
    revert hk
    cases k <;> decide
  unfold constrainsValues
  rw [List.any_eq_true.2 ⟨_, hmem, hhas⟩, Bool.true_or]

end Schema

namespace Conversion

variable {convert : Converter} {producers : List Producer} {s : Schema} {l : Location}
  {a : Attributes} {v : Json}

/-! ## Parts that fail -/

theorem fails_itemType (h : s.misfits .items = true) : Fails (itemType convert s l a) := by
  obtain ⟨v, hv, hmisfit⟩ := Schema.misfits_iff.1 h
  unfold itemType
  rw [show s.get? "items" = some v from hv]
  cases v with
  | array items => cases hmisfit
  | bool b => cases hmisfit
  | object fields => cases hmisfit
  | _ => exact fails_throw

theorem fails_arrayType (h : s.misfits .items = true) : Fails (arrayType convert s l a) := by
  unfold arrayType
  exact (fails_itemType h).bind _

theorem fails_objectType (h : s.misfits .required = true ∨ s.misfits .properties = true) :
    Fails (objectType convert s l a) := by
  unfold objectType
  refine fails_bind_lift fun required hrequired => fails_bind_lift fun fields hfields => ?_
  rw [(Schema.required_eq_ok_iff.1 hrequired).fits,
    (Schema.properties_eq_ok_iff.1 hfields).fits] at h
  rcases h with h | h <;> cases h

theorem fails_ofKeyword {keyword : String} {f : Json → ConversionM (List NodeId)}
    (hv : s.get? keyword = some v) (h : Fails (f v)) : Fails (ofKeyword s keyword f) := by
  unfold ofKeyword
  rw [hv]
  exact h

theorem fails_targetType (h : Keyword.ref.admits v = false) :
    Fails (targetType convert l a v) := by
  unfold targetType
  cases v with
  | string text => cases h
  | _ => exact fails_throw

theorem fails_operandTypes {operation : String} (h : v.array?.isSome = false) :
    Fails (operandTypes convert l a operation v) := by
  unfold operandTypes
  cases v with
  | array items => cases h
  | _ => exact fails_throw

theorem fails_ownUnion {allowed : Option (List Primitive)} {produced : List Produced}
    (hallows : s.Allows allowed)
    (h : (s.describes .array = true ∧ s.misfits .items = true) ∨ (s.describes .object = true ∧
      (s.misfits .required = true ∨ s.misfits .properties = true))) :
    Fails (ownUnion convert s l allowed produced a) := by
  unfold ownUnion
  refine fails_bind fun plain => fails_optional fun strings => ?_
  rcases h with ⟨hopen, hitems⟩ | ⟨hopen, hkeyword⟩
  · exact .optional ((hallows.isOpenTo_eq _).trans hopen) (fails_arrayType hitems)
  · refine fails_optional fun arrays => ?_
    exact .optional ((hallows.isOpenTo_eq _).trans hopen) (fails_objectType hkeyword)

/-- **The type of a malformed schema is never made.** -/
theorem hopeless_malformed (producers : List Producer) :
    Hopeless producers Schema.malformed := by
  intro s h convert l a
  obtain ⟨k, hmisfit, hreads⟩ := Schema.malformed_iff.1 h
  obtain ⟨v, hv, hshape⟩ := Schema.misfits_iff.1 hmisfit
  unfold schemaType
  refine fails_bind_lift fun allowed hallowed => ?_
  have hallows := Schema.allows_of_types? hallowed
  refine fails_bind fun attributes => fails_bind fun r => fails_bind fun _ => ?_
  have hown (hk : k ∈ [Keyword.required, .properties, .items])
      (hfails : Fails (ownUnion convert s l allowed
        (produce producers s l.canonical (s.included allowed) none) attributes))
      (f : List NodeId → ConversionM NodeId) :=
    Fails.optional (f := f) (Schema.constrainsValues_of_misfits hk hmisfit) hfails
  cases k with
  | type =>
    rw [hallows.fits] at hmisfit
    cases hmisfit
  | required => exact hown (by decide) (fails_ownUnion hallows (.inr ⟨hreads, .inl hmisfit⟩)) _
  | properties => exact hown (by decide) (fails_ownUnion hallows (.inr ⟨hreads, .inr hmisfit⟩)) _
  | items => exact hown (by decide) (fails_ownUnion hallows (.inl ⟨hreads, hmisfit⟩)) _
  | ref =>
    refine fails_optional fun own => ?_
    exact (fails_ofKeyword hv ((fails_targetType hshape).bind _)).bind _
  | allOf =>
    refine fails_optional fun own => fails_bind fun target => ?_
    exact (fails_ofKeyword hv (fails_operandTypes hshape)).bind _
  | oneOf =>
    refine fails_optional fun own => fails_bind fun target => fails_bind fun all => ?_
    refine (fails_ofKeyword hv (Fails.bind ?_ _)).bind _
    exact (fails_operandTypes hshape).bind _
  | anyOf =>
    refine fails_optional fun own => fails_bind fun target => fails_bind fun all => ?_
    refine fails_bind fun one => (fails_ofKeyword hv (Fails.bind ?_ _)).bind _
    exact (fails_operandTypes hshape).bind _

end Conversion

/-! ## Runs -/

namespace SchemaInput

/-- **A run that visits a malformed schema fails**, whatever other keywords the schema has, and
    wherever it lies. -/
theorem malformed_fails (i : SchemaInput) (b : Builder) (h : i.Visits b Schema.malformed) :
    ∃ e, (i.addTypes b).1 = .error (.conversion e) :=
  error_of_visits (Conversion.hopeless_malformed i.producers) h

/-- A run on one schema. -/
def ofSchema (name : String) (s : Schema) : SchemaInput :=
  (ofDocuments []).addAll [plainSource name none (some (.value (.object s)))]

/-- Whether a conversion has stopped where nothing is admitted. -/
def stopped : Except ConversionError Unit → Bool
  | .error (.falseSchema _) => true
  | _ => false

/-- A run visits a schema of some kind, if it stops with a wire at those, and does not without. -/
theorem visits_of_stopped {i : SchemaInput} {bad : Schema → Bool} (hne : i.sources ≠ [])
    (hok : (i.gatherAll.run i.start).1.isOk = true)
    (h : let g := (i.gatherAll.run i.start).2
      let depth := Conversion.depthFor i.size g.topLevels.size
      let convert := Conversion.typeOfUntil i.producers bad (.falseSchema ⟨none, []⟩) depth
      stopped ((Conversion.addTopLevelsBy convert g.topLevels.entries).run
          ⟨g.resolver, .new, ∅⟩).1 ≠
        stopped ((Conversion.addTopLevels i.producers depth g.topLevels.entries).run
          ⟨g.resolver, .new, ∅⟩).1) : i.Visits .new bad :=
  ⟨hne, _, run_eq_of_isOk hok, Conversion.visits_of_run_ne fun heq => h (by rw [heq])⟩

/-- An order with a line, whose schema requires no list of names; the schema itself is in order. -/
def order : SchemaInput :=
  ofSchema "Order"
    [("properties", .object [("line", .object [("$ref", .string "#/definitions/line")])]),
      ("definitions", .object [("line", .object
        [("type", .array [.string "null", .string "object"]), ("required", .string "sku")])])]

/-- The order fails for its line. -/
theorem malformed_fails_order : order.Visits .new Schema.malformed ∧
    ∃ e, (order.addTypes .new).1 = .error (.conversion e) := by
  have hvisits : order.Visits .new Schema.malformed :=
    visits_of_stopped (List.ne_nil_of_length_eq_add_one rfl) (by decide +kernel) (by decide +kernel)
  exact ⟨hvisits, malformed_fails order .new hvisits⟩

/-- A code, with a misfit that is not read: strings have no properties to require. -/
def code : SchemaInput := ofSchema "Code" [("type", .string "string"), ("required", .number (.integer 5))]

/-- The code is converted, though it has a keyword of another shape than that asks for. -/
theorem not_forall_misfit_fails :
    ¬∀ (i : SchemaInput) (b : Builder), i.Visits b Schema.misfit →
      ∃ e, (i.addTypes b).1 = .error e := by
  intro h
  have hvisits : code.Visits .new Schema.misfit :=
    visits_of_stopped (List.ne_nil_of_length_eq_add_one rfl) (by decide +kernel) (by decide +kernel)
  obtain ⟨e, he⟩ := h code .new hvisits
  have hok : (code.addTypes .new).1.isOk = true := by decide +kernel
  rw [he] at hok
  cases hok

end SchemaInput

end SchemaTypes
