/-
  Options of a run.

  `Options.read?` takes them from JSON: an object whose missing fields keep their
  defaults, or a list of the leading fields in order; a field that is repeated or of the
  wrong type is refused.  Other fields do not count: `Options.selection` leaves them out.
-/
import SchemaTypes.Format
import SchemaTypes.Json
import SchemaTypes.Json.Selection

namespace SchemaTypes

/-- What the target of the types can express. -/
structure Target where
  /-- Objects with both named and additional properties. -/
  fullObjects : Bool
  /-- Class properties that may be absent. -/
  optionalProperties : Bool
  /-- Unions with both integers and doubles. -/
  bothNumbersInUnions : Bool
  /-- The representation of each format; one that is missing is plain. -/
  stringTypes : List (Format × Representation)
  deriving DecidableEq

/-- The options of a run. -/
structure Options where
  inferMaps : Bool
  inferEnums : Bool
  inferUuids : Bool
  inferDateTimes : Bool
  inferIntegerStrings : Bool
  inferBooleanStrings : Bool
  /-- Merge similar classes that no schema prescribes. -/
  combineClasses : Bool
  alphabetizeProperties : Bool
  allPropertiesOptional : Bool
  target : Target
  deriving DecidableEq

namespace Target

/-- Formats are native, but integers and booleans in strings are converted. -/
def default : Target where
  fullObjects := false
  optionalProperties := true
  bothNumbersInUnions := false
  stringTypes := Format.all.map fun f =>
    (f, if f = .integer ∨ f = .boolean then .transformed else .native)

/-- How a format is represented. -/
def representation (t : Target) (f : Format) : Representation :=
  (t.stringTypes.lookup f).getD .plain

end Target

namespace Options

/-- Everything is inferred, nothing reordered or made optional. -/
def ofTarget (target : Target) : Options where
  inferMaps := true
  inferEnums := true
  inferUuids := true
  inferDateTimes := true
  inferIntegerStrings := true
  inferBooleanStrings := true
  combineClasses := true
  alphabetizeProperties := false
  allPropertiesOptional := false
  target

/-- The options where none are given. -/
def default : Options := ofTarget .default

/-- Whether a format may be inferred at all. -/
def infers (o : Options) : Format → Bool
  | .uuid => o.inferUuids
  | .dateTime | .date | .time => o.inferDateTimes
  | .integer => o.inferIntegerStrings
  | .boolean => o.inferBooleanStrings
  | .uri => true

/-- How a format is represented in the end: plain if it may not be inferred. -/
def representation (o : Options) (f : Format) : Representation :=
  if o.infers f then o.target.representation f else .plain

/-! ## Flags by name -/

/-- Sets the flag of a name; `none` for a name that is no flag. -/
def setFlag? (o : Options) (name : String) (value : Bool) : Option Options :=
  match name with
  | "infer_maps" => some { o with inferMaps := value }
  | "infer_enums" => some { o with inferEnums := value }
  | "infer_uuids" => some { o with inferUuids := value }
  | "infer_date_times" => some { o with inferDateTimes := value }
  | "infer_integer_strings" => some { o with inferIntegerStrings := value }
  | "infer_boolean_strings" => some { o with inferBooleanStrings := value }
  | "combine_classes" => some { o with combineClasses := value }
  | "alphabetize_properties" => some { o with alphabetizeProperties := value }
  | "all_properties_optional" => some { o with allPropertiesOptional := value }
  | _ => none

/-! ## JSON -/

/-- The names of the fields of a target, in order. -/
def targetFields : List String :=
  ["supports_full_object_type", "supports_optional_class_properties",
   "supports_unions_with_both_number_types", "string_types"]

/-- The names of the fields of options, in order. -/
def fields : List String :=
  ["infer_maps", "infer_enums", "infer_uuids", "infer_date_times", "infer_integer_strings",
   "infer_boolean_strings", "combine_classes", "alphabetize_properties",
   "all_properties_optional", "target"]

/-- What counts of a document with options. -/
def selection : Json.Selection :=
  .fields (fields.map fun k =>
    (k, if k = "target" then .fields (targetFields.map fun k => (k, .everything))
        else .everything))

/-- A truth value. -/
def readBool? : Json → Option Bool
  | .bool b => some b
  | _ => none

/-- A representation by name, or as an object with that one field. -/
def readRepresentation? : Json → Option Representation
  | .string s => Representation.ofName? s
  | .object [(k, .null)] => Representation.ofName? k
  | _ => none

/-- Representations by format; the last one for a format counts. -/
def readStringTypes? : Json → Option (List (Format × Representation))
  | .object entries => entries.foldl (fun acc (k, v) => do
      let acc ← acc
      let f ← Format.ofName? k
      let r ← readRepresentation? v
      return (f, r) :: acc) (some [])
  | _ => none

/-- The fields of a value: those of an object, where known ones stand once, or the
    items of a list as the first of the known ones. -/
def readFields? (known : List String) : Json → Option Json.Fields
  | .object entries =>
    let mine := entries.filter (·.1 ∈ known)
    if (mine.map (·.1)).eraseDups.length = mine.length then some mine else none
  | .array items => if items.length ≤ known.length then some (known.zip items) else none
  | _ => none

/-- Sets one field of a target. -/
def setTargetField? (t : Target) (key : String) (v : Json) : Option Target :=
  match key with
  | "supports_full_object_type" => (readBool? v).map fun b => { t with fullObjects := b }
  | "supports_optional_class_properties" =>
    (readBool? v).map fun b => { t with optionalProperties := b }
  | "supports_unions_with_both_number_types" =>
    (readBool? v).map fun b => { t with bothNumbersInUnions := b }
  | "string_types" => (readStringTypes? v).map fun m => { t with stringTypes := m }
  | _ => some t

/-- A target; fields that are missing keep their defaults. -/
def readTarget? (v : Json) : Option Target := do
  (← readFields? targetFields v).foldl
    (fun acc (k, v) => acc.bind fun t => setTargetField? t k v) (some .default)

/-- Sets one field of options. -/
def setField? (o : Options) (key : String) (v : Json) : Option Options :=
  if key = "target" then (readTarget? v).map fun t => { o with target := t }
  else (readBool? v).bind (o.setFlag? key)

/-- Options; fields that are missing keep their defaults. -/
def read? (v : Json) : Option Options := do
  (← readFields? fields v).foldl
    (fun acc (k, v) => acc.bind fun o => setField? o k v) (some .default)

end Options

end SchemaTypes
