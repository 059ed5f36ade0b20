/-
  Attributes as JSON documents.

  Categories that are missing or empty are left out; bounds that are missing or not finite are null.
-/
import SchemaTypes.Attribute
import SchemaTypes.Json

namespace SchemaTypes

/-- The fields that are there. -/
def Json.ofFields (fields : List (String × Option Json)) : Json :=
  .object (fields.filterMap fun (k, v) => v.map (k, ·))

/-- The members of a set in order. -/
def Json.ofSet (s : SortedSet String) : Json := .array (s.toList.map .string)

/-- The members of a set, if there are any. -/
def Json.ofSet? (s : SortedSet String) : Option Json := if s.isEmpty then none else some (.ofSet s)

/-- The entries of a map by key, if there are any. -/
def Json.ofMap? {ν : Type} (f : ν → Json) (m : SortedMap String ν) : Option Json :=
  if m.isEmpty then none else some (.object (m.toList.map fun (k, v) => (k, f v)))

/-- Names as a document. -/
def Names.toJson : Names → Json
  | regular names alternatives inferred =>
    .object [("kind", .string "regular"), ("names", .ofSet names),
      ("alternatives", .ofSet alternatives), ("inferred", .bool inferred)]
  | tooMany inferred => .object [("kind", .string "too_many"), ("inferred", .bool inferred)]

/-- Bounds as a document. -/
def Bounds.toJson (b : Bounds) : Json :=
  let bound : Option Double → Json
    | some (.finite x) => .number (.double x)
    | _ => .null
  .object [("min", bound b.min), ("max", bound b.max)]

/-- Protocols and extensions as a document. -/
def UriAttributes.toJson (u : UriAttributes) : Json :=
  .object [("protocols", .ofSet u.protocols), ("extensions", .ofSet u.extensions)]

/-- Attributes as a document. -/
def Attributes.toJson (a : Attributes) : Json :=
  .ofFields [
    ("names", a.names.map Names.toJson),
    ("descriptions", Json.ofSet? a.descriptions),
    ("property_descriptions", Json.ofMap? Json.ofSet a.propertyDescriptions),
    ("accessor_names", Json.ofMap? .string a.accessorNames),
    ("case_accessor", a.caseAccessor.map .string),
    ("enum_value_names", Json.ofMap? .string a.enumValueNames),
    ("uri", a.uri.map UriAttributes.toJson),
    ("min_max", a.minMax.map Bounds.toJson),
    ("min_max_length", a.minMaxLength.map Bounds.toJson),
    ("pattern", a.pattern.map .string),
    ("transformation", a.transformation.map fun f => .string f.name)]

end SchemaTypes
