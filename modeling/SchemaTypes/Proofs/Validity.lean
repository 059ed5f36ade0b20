/-
  Which values are valid against a schema.

  * `Schema.Accepts`: what the keywords of a schema say about a value, where a predicate says
    which values are valid against the schemas below it;
  * `Valid`: the least relation between schemas and values that agrees with the keywords
    (`valid_iff`), with its induction principle (`Valid.induction`);
  * `Schema.Plain`: schemas whose keywords have the forms that types can express;
    `Reaches`: the schemas that a schema leads to.

  Members of `oneOf` are not kept from overlapping, so `oneOf` is read as `anyOf`: every value
  that is valid against exactly one member is valid here.
-/
import SchemaTypes.Keywords

namespace SchemaTypes

namespace Json

/-- Whether the value is neither an array nor an object. -/
def isScalar : Json → Bool
  | array _ | object _ => false
  | _ => true

/-- Values that count as equal: numbers do if they are the same double. -/
inductive Equals : Json → Json → Prop
  | refl (v : Json) : Equals v v
  | number {m n : Number} (h : m.toBinary64 == n.toBinary64) : Equals (number m) (number n)

/-- The name is the value of the keyword `type`, or one of those in it. -/
def NamesType (t : Json) (name : String) : Prop :=
  t = string name ∨ ∃ items, t = array items ∧ string name ∈ items

mutual

/-- No object in the value has an identifier. -/
def WithoutIds : Json → Prop
  | array items => ItemsWithoutIds items
  | object fields => (∀ id, fields.lookup "$id" ≠ some (string id)) ∧ FieldsWithoutIds fields
  | _ => True

/-- `WithoutIds` for every item. -/
def ItemsWithoutIds : List Json → Prop
  | [] => True
  | v :: rest => WithoutIds v ∧ ItemsWithoutIds rest

/-- `WithoutIds` for the value of every field. -/
def FieldsWithoutIds : List (String × Json) → Prop
  | [] => True
  | (_, v) :: rest => WithoutIds v ∧ FieldsWithoutIds rest

end

end Json

/-! ## What keywords say -/

namespace Schema

/-- The schema of a declared property. -/
def declared? (s : Schema) (name : String) : Option Json :=
  (s.get? "properties").bind (·.field? name)

/-- What the keywords of a schema of a document say about a value, where `A` says which values
    are valid against other schemas. -/
structure Accepts (s : Schema) (formats : Format → String → Prop) (doc : Json)
    (A : Json → Json → Prop) (v : Json) : Prop where
  type : ∀ t, s.get? "type" = some t →
    ∃ name, t.NamesType name ∧ ∃ p, Primitive.ofName? name = some p ∧ p.accepts v = true
  enum : ∀ values, s.get? "enum" = some (.array values) → ∃ e ∈ values, e.Equals v
  const : ∀ c, s.get? "const" = some c → c.Equals v
  format : ∀ f text, s.format? = some f → v = .string text → formats f text
  required : ∀ names fields, s.get? "required" = some (.array names) → v = .object fields →
    ∀ name, .string name ∈ names → name ∈ fields.map Prod.fst
  properties : ∀ fields, v = .object fields →
    ∀ e ∈ fields, ∀ c, s.declared? e.1 = some c → A c e.2
  additional : ∀ c fields, s.get? "additionalProperties" = some c → v = .object fields →
    ∀ e ∈ fields, s.declared? e.1 = none → A c e.2
  items : ∀ c ws, s.get? "items" = some c → v = .array ws → ∀ w ∈ ws, A c w
  ref : ∀ text, s.get? "$ref" = some (.string text) →
    ∃ c, (Reference.parse text).lookup doc = .ok c ∧ A c v
  allOf : ∀ cs, s.get? "allOf" = some (.array cs) → ∀ c ∈ cs, A c v
  oneOf : ∀ cs, s.get? "oneOf" = some (.array cs) → ∃ c ∈ cs, A c v
  anyOf : ∀ cs, s.get? "anyOf" = some (.array cs) → ∃ c ∈ cs, A c v

end Schema

variable {formats : Format → String → Prop} {doc : Json} {A B : Json → Json → Prop}

theorem Schema.Accepts.mono {s : Schema} {v : Json} (h : s.Accepts formats doc A v)
    (hAB : ∀ c w, A c w → B c w) : s.Accepts formats doc B v where
  type := h.type
  enum := h.enum
  const := h.const
  format := h.format
  required := h.required
  properties fields hv e he c hc := hAB c e.2 (h.properties fields hv e he c hc)
  additional c fields hc hv e he hd := hAB c e.2 (h.additional c fields hc hv e he hd)
  items c ws hc hv w hw := hAB c w (h.items c ws hc hv w hw)
  ref text ht := by
    obtain ⟨c, hc, hv⟩ := h.ref text ht
    exact ⟨c, hc, hAB c v hv⟩
  allOf cs hcs c hc := hAB c v (h.allOf cs hcs c hc)
  oneOf cs hcs := by
    obtain ⟨c, hc, hv⟩ := h.oneOf cs hcs
    exact ⟨c, hc, hAB c v hv⟩
  anyOf cs hcs := by
    obtain ⟨c, hc, hv⟩ := h.anyOf cs hcs
    exact ⟨c, hc, hAB c v hv⟩

/-- What a schema says about a value: a truth value says it of all values. -/
def Json.Accepts (c : Json) (formats : Format → String → Prop) (doc : Json)
    (A : Json → Json → Prop) (v : Json) : Prop :=
  match c with
  | bool b => b = true
  | object s => Schema.Accepts s formats doc A v
  | _ => False

theorem Json.Accepts.mono {c v : Json} (h : c.Accepts formats doc A v)
    (hAB : ∀ c w, A c w → B c w) : c.Accepts formats doc B v := by
  cases c with
  | object s => exact Schema.Accepts.mono h hAB
  | _ => exact h

/-! ## The least relation -/

/-- The values that are valid against a schema of a document: the least relation that holds
    wherever the schema accepts a value by it. -/
inductive Valid (formats : Format → String → Prop) (doc : Json) : Json → Json → Prop
  | intro {c v : Json} (A : Json → Json → Prop) :
      (∀ d w, A d w → Valid formats doc d w) → c.Accepts formats doc A v → Valid formats doc c v

theorem valid_iff {c v : Json} :
    Valid formats doc c v ↔ c.Accepts formats doc (Valid formats doc) v := by
  constructor
  · rintro ⟨A, hA, h⟩
    exact h.mono hA
  · exact fun h => .intro _ (fun _ _ => id) h

/-- Whatever holds where a schema accepts a value by it holds of all that is valid. -/
theorem Valid.induction {P : Json → Json → Prop}
    (hP : ∀ c v, c.Accepts formats doc (fun d w => Valid formats doc d w ∧ P d w) v → P c v)
    {c v : Json} (h : Valid formats doc c v) : P c v := by
  induction h with
  | intro A hA h ih => exact hP _ _ (h.mono fun d w hd => ⟨hA d w hd, ih d w hd⟩)

/-! ## Plain schemas -/

namespace Schema

/-- Keywords of the forms that types can express: listed values are scalars, items have one
    schema, `required` lists names, references stay in the document, and properties are not
    described by patterns. -/
structure Plain (s : Schema) : Prop where
  isScalar_enum : ∀ values, s.get? "enum" = some (.array values) →
    ∀ e ∈ values, e.isScalar = true
  isScalar_const : ∀ c, s.get? "const" = some c → c.isScalar = true
  type_of_const : s.has "const" = true → ∀ items, s.get? "type" ≠ some (.array items)
  required : ∀ b, s.get? "required" ≠ some (.bool b)
  items : ∀ cs, s.get? "items" ≠ some (.array cs)
  patternProperties : s.get? "patternProperties" = none
  ref : ∀ text, s.get? "$ref" = some (.string text) → (Reference.parse text).address = none

/-- The schemas that the keywords of a schema name. -/
inductive Uses (doc : Json) (s : Schema) : Json → Prop
  | property {name : String} {c : Json} (h : s.declared? name = some c) : Uses doc s c
  | additional {c : Json} (h : s.get? "additionalProperties" = some c) : Uses doc s c
  | items {c : Json} (h : s.get? "items" = some c) : Uses doc s c
  | operand {operation : String} {cs : List Json} {c : Json}
      (ho : operation ∈ ["allOf", "oneOf", "anyOf"]) (h : s.get? operation = some (.array cs))
      (hc : c ∈ cs) : Uses doc s c
  | ref {text : String} {c : Json} (h : s.get? "$ref" = some (.string text))
      (hc : (Reference.parse text).lookup doc = .ok c) : Uses doc s c

end Schema

/-- The schemas that a schema leads to. -/
inductive Reaches (doc c : Json) : Json → Prop
  | refl : Reaches doc c c
  | step {s : Schema} {d : Json} (h : Reaches doc c (.object s)) (hd : s.Uses doc d) :
      Reaches doc c d

end SchemaTypes
