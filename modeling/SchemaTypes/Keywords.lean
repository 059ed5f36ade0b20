/-
  Keywords of a schema, read by themselves.

  * `types?`, `required` and `properties` read and check the keywords of these names;
  * `includes` says which of the seven types a schema includes, as `type`, `enum` and
    `const` tell;
  * `orderedProperties` puts declared properties in their order.
-/
import SchemaTypes.Attribute
import SchemaTypes.Json.Printer
import SchemaTypes.Lookup
import SchemaTypes.Primitive
import SchemaTypes.Text.Lowercase

namespace SchemaTypes

/-- The keywords of a schema with their values. -/
abbrev Schema := Json.Fields

namespace Schema

/-- The value of a keyword. -/
def get? (s : Schema) (keyword : String) : Option Json := s.lookup keyword

/-- Whether a keyword is there. -/
def has (s : Schema) (keyword : String) : Bool := (s.get? keyword).isSome

/-! ## `type`, `enum` and `const` -/

/-- The names that the value of `type` lists. -/
def typeNames (place : Reference) : Json → Except ConversionError (List String)
  | .string name => .ok [name]
  | .array items => items.mapM fun item =>
    match item.string? with
    | some name => .ok name
    | none => .error (.typeElementNotText place item)
  | v => .error (.typeNotTextOrArray place v.typeName)

/-- The types that the keyword `type` allows, if it is there. -/
def types? (s : Schema) (place : Reference) : Except ConversionError (Option (List Primitive)) :=
  match s.get? "type" with
  | none => .ok none
  | some v => do
    let names ← typeNames place v
    if names.isEmpty then throw (.noType place)
    let types ← names.mapM fun name =>
      match Primitive.ofName? name with
      | some t => .ok t
      | none => .error (.unknownType place name)
    return some types

/-- The values of `enum`, if it lists any. -/
def enumValues? (s : Schema) : Option (List Json) := (s.get? "enum").bind Json.array?

/-- The one type of the value of `const`.  The keyword `type` decides if it is there; a
    list of types matches none. -/
def constType? (s : Schema) (value : Json) : Option Primitive :=
  match s.get? "type" with
  | some (.string name) => Primitive.ofName? name
  | some _ => none
  | none => Primitive.ofName? value.typeName

/-- Whether a schema includes a type, given the types that it allows. -/
def includes (s : Schema) (allowed : Option (List Primitive)) (t : Primitive) : Bool :=
  (match allowed with | some types => decide (t ∈ types) | none => true) &&
    match s.enumValues?, s.get? "const" with
    | some values, _ => values.any t.accepts
    | none, some value => decide (s.constType? value = some t)
    | none, none => true

/-- The types that a schema includes. -/
def included (s : Schema) (allowed : Option (List Primitive)) : List Primitive :=
  Primitive.all.filter (s.includes allowed)

/-- Whether a schema admits values other than listed ones, of a type. -/
def isOpenTo (s : Schema) (allowed : Option (List Primitive)) (t : Primitive) : Bool :=
  s.enumValues?.isNone && !s.has "const" &&
    match allowed with
    | some types => decide (t ∈ types)
    | none => true

/-- The strings that a schema lists: the value of `const`, written out if it is no string,
    or the strings among those of `enum`. -/
def cases? (s : Schema) : Option (SortedSet String) :=
  match s.get? "const" with
  | some (.string text) => some (.singleton text)
  | some v => some (.singleton v.compact)
  | none =>
    match s.enumValues? with
    | some values =>
      let cases := SortedSet.ofList (values.filterMap Json.string?)
      if cases.isEmpty then none else some cases
    | none => none

/-- The format of the strings of a schema. -/
def format? (s : Schema) : Option Format :=
  ((s.get? "format").bind Json.string?).bind Format.ofKeyword?

/-- Whether a schema says something of the values themselves, so that it needs a union of
    its own. -/
def constrainsValues (s : Schema) : Bool :=
  ["type", "properties", "additionalProperties", "items", "required", "const"].any s.has ||
    s.enumValues?.isSome

/-! ## Objects -/

/-- The declared properties. -/
def properties (s : Schema) (place : Reference) : Except ConversionError Json.Fields :=
  match s.get? "properties" with
  | none => .ok []
  | some (.object properties) => .ok properties
  | some v => .error (.propertiesNotObject place v.typeName)

/-- The names that `required` lists; a truth value there speaks of the schema itself. -/
def required (s : Schema) (place : Reference) : Except ConversionError (List String) :=
  match s.get? "required" with
  | none | some (.bool _) => .ok []
  | some (.array items) => items.mapM fun item =>
    match item.string? with
    | some name => .ok name
    | none => .error (.requiredElementNotText place item)
  | some v => .error (.requiredNotArray place v.typeName)

/-- The required names, with the properties that declare themselves required. -/
def allRequired (required : List String) (properties : Json.Fields) : List String :=
  properties.foldl (fun names p =>
    match p.2.field? "required" with
    | some (.bool true) => if p.1 ∈ names then names else names ++ [p.1]
    | _ => names) required

/-- The schema of further properties: `additionalProperties`, or the pattern that matches
    everything. -/
def additional? (s : Schema) : Option Json :=
  match s.get? "additionalProperties" with
  | some v => some v
  | none => (s.get? "patternProperties").bind (·.field? ".*")

/-- The place of a property: first those that an order lists, then the others by their
    lowercase names. -/
def orderKey (order : List String) (name : String) : Nat × String :=
  match order.idxOf? name with
  | some i => (i, "")
  | none => (order.length, Text.lowercase name)

/-- Whether a property may stand before another. -/
def orderedBefore (order : List String) (a b : String) : Bool :=
  let (i, s) := orderKey order a
  let (j, t) := orderKey order b
  decide (i < j) || (i == j && decide (s ≤ t))

/-- The names that the schema puts in order. -/
def propertyOrder (s : Schema) : List String :=
  (((s.get? "quicktypePropertyOrder").bind Json.array?).getD []).filterMap Json.string?

/-- The declared properties in order; equal ones stay as they are. -/
def orderedProperties (s : Schema) (properties : Json.Fields) : Json.Fields :=
  properties.mergeSort fun a b => orderedBefore s.propertyOrder a.1 b.1

/-! ## Names -/

/-- The attributes named by the schema: given names stay, inferred ones give way to the
    title or the name of the definition at its place. -/
def nameAttributes (s : Schema) (place : Reference) (a : Attributes) : Attributes :=
  if a.hasGivenNames then a
  else
    match ((s.get? "title").bind Json.string?).or place.definitionName? with
    | some title => { a with names := some (.single title (s.has "$ref")) }
    | none => { a with names := a.names.map .makeInferred }

end Schema

end SchemaTypes
