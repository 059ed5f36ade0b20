/-
  Attributes from the keywords of a schema.

  A producer looks at one schema, the types it includes, and, where attributes for the
  members of `oneOf` are wanted, at those members; what it produces says to which part
  of the converted type it belongs.  `Producer.standard` lists the producers that every
  conversion uses.
-/
import SchemaTypes.Attribute
import SchemaTypes.Primitive

namespace SchemaTypes

/-- Attributes by the part of a type that they belong to. -/
structure Produced where
  /-- The type itself. -/
  forType : Option Attributes := none
  /-- The union of the members of `oneOf`. -/
  forUnion : Option Attributes := none
  /-- Each member of `oneOf`, in order. -/
  forCases : Option (List Attributes) := none
  /-- The object among the members. -/
  forObject : Option Attributes := none
  /-- The string among the members. -/
  forString : Option Attributes := none
  /-- The numbers among the members. -/
  forNumber : Option Attributes := none

/-- The attributes that a schema declares at a place, given the types it includes and
    the members of `oneOf`, if attributes for them are wanted. -/
def Producer :=
  Json.Fields → Reference → List Primitive → Option (List Json) → Option Produced

namespace Producer

/-- The text of a field. -/
def textOf (schema : Json.Fields) (key : String) : Option String :=
  (schema.lookup key).bind Json.string?

/-- The fields whose values are texts. -/
def textFields (fields : Json.Fields) : SortedMap String String :=
  .ofList (fields.filterMap fun (k, v) => v.string?.map fun s => (k, s))

/-- The texts among the items of a field. -/
def textItems (schema : Json.Fields) (key : String) : SortedSet String :=
  .ofList ((((schema.lookup key).bind Json.array?).getD []).filterMap Json.string?)

/-- The descriptions of declared properties. -/
def propertyDescriptions (properties : Json.Fields) : SortedMap String (SortedSet String) :=
  .ofList (properties.filterMap fun (k, v) =>
    ((v.field? "description").bind Json.string?).map fun d => (k, .singleton d))

/-- `description`, and the descriptions of declared properties. -/
def description : Producer := fun schema _ types _ =>
  let forType := (textOf schema "description").map Attributes.described
  let forObject :=
    if .object ∈ types then
      match (schema.lookup "properties").bind Json.object? with
      | some properties =>
        let ds := propertyDescriptions properties
        if ds.isEmpty then none else some { Attributes.empty with propertyDescriptions := ds }
      | none => none
    else none
  if forType.isNone && forObject.isNone then none else some { forType, forObject }

/-- `qt-accessors`: accessors of properties, or one for each member of `oneOf`. -/
def accessors : Producer := fun schema _ _ cases => do
  let value ← schema.lookup "qt-accessors"
  match cases with
  | none =>
    let fields ← value.object?
    return { forType := some { Attributes.empty with accessorNames := textFields fields } }
  | some members =>
    let names ← value.array?
    if names.length ≠ members.length then none
    else
      return { forCases := some (names.map fun n =>
        { Attributes.empty with caseAccessor := n.string? }) }

/-- `qt-enum-values`: names of the cases of an enumeration. -/
def enumValues : Producer := fun schema _ types cases =>
  if cases.isSome || .string ∉ types then none
  else do
    let fields ← (← schema.lookup "qt-enum-values").object?
    return { forString := some { Attributes.empty with enumValueNames := textFields fields } }

/-- `qt-uri-protocols` and `qt-uri-extensions`. -/
def uri : Producer := fun schema _ types cases =>
  if cases.isSome || .string ∉ types then none
  else
    let u : UriAttributes :=
      ⟨textItems schema "qt-uri-protocols", textItems schema "qt-uri-extensions"⟩
    if u = .empty then none
    else some { forString := some { Attributes.empty with uri := some u } }

/-- The bounds that two fields give, if there is one. -/
def boundsOf (schema : Json.Fields) (minKey maxKey : String) : Option Bounds :=
  let min := (schema.lookup minKey).bind Json.double?
  let max := (schema.lookup maxKey).bind Json.double?
  if min.isNone && max.isNone then none else some ⟨min, max⟩

/-- `minimum` and `maximum`. -/
def range : Producer := fun schema _ types cases =>
  if cases.isSome || (.number ∉ types && .integer ∉ types) then none
  else (boundsOf schema "minimum" "maximum").map fun b =>
    { forNumber := some { Attributes.empty with minMax := some b } }

/-- `minLength` and `maxLength`. -/
def lengths : Producer := fun schema _ types cases =>
  if cases.isSome || .string ∉ types then none
  else (boundsOf schema "minLength" "maxLength").map fun b =>
    { forString := some { Attributes.empty with minMaxLength := some b } }

/-- `pattern`. -/
def pattern : Producer := fun schema _ types cases =>
  if cases.isSome || .string ∉ types then none
  else (textOf schema "pattern").map fun p =>
    { forString := some { Attributes.empty with pattern := some p } }

/-- The producers that every conversion uses, in order. -/
def standard : List Producer :=
  [description, accessors, enumValues, uri, range, lengths, pattern]

end Producer

end SchemaTypes
