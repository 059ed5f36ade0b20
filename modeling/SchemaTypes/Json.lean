/-
  JSON documents.

  Objects keep the order of their fields; a key stands at most once in an object
  that was read from text (`Json.KeysDistinct`).  Numbers are integers of 64
  bits, signed or unsigned, or finite doubles.
-/
import SchemaTypes.Double

namespace SchemaTypes

/-- A JSON number. -/
inductive Number where
  /-- An integer that fits an unsigned or a signed 64-bit word. -/
  | integer (n : Int)
  | double (x : Binary64)
  deriving DecidableEq, Inhabited

namespace Number

/-- The number as a double, rounded if need be. -/
def toBinary64 : Number → Binary64
  | integer n => Binary64.ofInt n
  | double x => x

/-- Whether the number has no fractional part. -/
def isWhole (n : Number) : Bool := n.toBinary64.isWhole

end Number

/-- A JSON value. -/
inductive Json where
  | null
  | bool (b : Bool)
  | number (n : Number)
  | string (s : String)
  | array (items : List Json)
  | object (fields : List (String × Json))
  deriving Inhabited

namespace Json

/-- The fields of an object, in order. -/
abbrev Fields := List (String × Json)

/-- The name of the type a value has in JSON. -/
def typeName : Json → String
  | null => "null"
  | bool _ => "boolean"
  | number _ => "number"
  | string _ => "string"
  | array _ => "array"
  | object _ => "object"

/-- The text of a string value. -/
def string? : Json → Option String
  | string s => some s
  | _ => none

/-- The items of an array value. -/
def array? : Json → Option (List Json)
  | array items => some items
  | _ => none

/-- The fields of an object value. -/
def object? : Json → Option Fields
  | object fields => some fields
  | _ => none

/-- The value of a number as a double. -/
def double? : Json → Option Double
  | number n => some (.finite n.toBinary64)
  | _ => none

/-- Whether the value is a schema: an object or a boolean. -/
def isSchema : Json → Bool
  | object _ | bool _ => true
  | _ => false

/-- The value of a field of an object; other values have no fields. -/
def field? (v : Json) (key : String) : Option Json :=
  match v with
  | object fields => fields.lookup key
  | _ => none

namespace Fields

/-- Whether a field with this key is there. -/
def has (fields : Fields) (key : String) : Bool := (fields.lookup key).isSome

/-- Sets a field: in place if the key is there, else at the end. -/
def set (key : String) (value : Json) : Fields → Fields
  | [] => [(key, value)]
  | (k, v) :: rest => if k = key then (k, value) :: rest else (k, v) :: set key value rest

end Fields

mutual

/-- No object in the value has two fields with one key. -/
def KeysDistinct : Json → Prop
  | array items => ItemsKeysDistinct items
  | object fields => (fields.map Prod.fst).Nodup ∧ FieldsKeysDistinct fields
  | _ => True

/-- `KeysDistinct` for every item. -/
def ItemsKeysDistinct : List Json → Prop
  | [] => True
  | v :: rest => KeysDistinct v ∧ ItemsKeysDistinct rest

/-- `KeysDistinct` for the value of every field. -/
def FieldsKeysDistinct : List (String × Json) → Prop
  | [] => True
  | (_, v) :: rest => KeysDistinct v ∧ FieldsKeysDistinct rest

end

mutual

/-- The number of values in a value, itself included. -/
def size : Json → Nat
  | array items => sizeItems items + 1
  | object fields => sizeFields fields + 1
  | _ => 1

/-- The number of values in a list of items. -/
def sizeItems : List Json → Nat
  | [] => 0
  | v :: rest => size v + sizeItems rest

/-- The number of values in a list of fields. -/
def sizeFields : List (String × Json) → Nat
  | [] => 0
  | (_, v) :: rest => size v + sizeFields rest

end

end Json

end SchemaTypes
