/-
  Following a reference inside its document.

  `Reference.lookup` takes one step of the path after the other; every error tells the
  part of the path walked so far.  The value at the end must be a schema: an object or
  a boolean.
-/
import SchemaTypes.Error
import SchemaTypes.Text.Digit

namespace SchemaTypes

/-- The fields of a schema that must be an object. -/
def checkObject (v : Json) (place : Reference) : Except ConversionError Json.Fields :=
  match v with
  | .object fields => .ok fields
  | .array _ => .error (.schemaIsArray place)
  | .null => .error (.schemaIsNull place)
  | v => .error (.invalidSchema place v.typeName)

/-- Makes sure that a value is a schema. -/
def checkSchema (v : Json) (place : Reference) : Except ConversionError Unit :=
  match v with
  | .bool _ => .ok ()
  | v => (checkObject v place).map fun _ => ()

/-- The index that a key of an array stands for: decimal digits, perhaps after a plus
    sign, of a number of 64 bits. -/
def arrayIndex? (key : String) : Option Nat :=
  let digits := match key.toList with
    | '+' :: cs => cs
    | cs => cs
  if digits.isEmpty then none
  else
    let n := digits.foldl (fun acc c => do return (← acc) * 10 + (← Text.digit? c)) (some 0)
    n.filter (· < UInt64.size)

namespace Reference

/-- Takes one key from a value. -/
def lookupKey (key : String) (v : Json) (place : Reference) : Except ConversionError Json :=
  match v with
  | .array items =>
    match arrayIndex? key with
    | none => .error (.indexNotNumber place key)
    | some i =>
      match items[i]? with
      | some item => .ok item
      | none => .error (.indexNotFound place i)
  | v => do
    let fields ← checkObject v place
    match fields.lookup key with
    | some w => .ok w
    | none => .error (.keyNotFound place key)

/-- Takes the steps `rest` from the value `v`, which the steps `walked` lead to. -/
def walk (r : Reference) (document : Json) (walked : List Step) (v : Json) :
    List Step → Except ConversionError Json
  | [] => .ok v
  | .root :: rest => walk r document (walked ++ [.root]) document rest
  | .key k :: rest => do
    let w ← lookupKey k v ⟨r.address, walked⟩
    walk r document (walked ++ [.key k]) w rest
  | _ :: _ => .error (.pathNotInDocument r)

/-- The schema that a reference leads to in a document. -/
def lookup (r : Reference) (document : Json) : Except ConversionError Json := do
  let v ← walk r document [] document r.path
  checkSchema v r
  return v

end Reference

end SchemaTypes
