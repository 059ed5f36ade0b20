/-
  The seven types that schemas name, and the values that belong to them.
-/
import SchemaTypes.Json

namespace SchemaTypes

/-- A type that the keyword `type` can name. -/
inductive Primitive where
  | null | boolean | string | integer | number | array | object
  deriving DecidableEq, Repr

namespace Primitive

/-- All types, in their usual order. -/
def all : List Primitive := [null, boolean, string, integer, number, array, object]

/-- The name of a type. -/
def name : Primitive → String
  | null => "null"
  | boolean => "boolean"
  | string => "string"
  | integer => "integer"
  | number => "number"
  | array => "array"
  | object => "object"

/-- The type of a name. -/
def ofName? (s : String) : Option Primitive := all.find? (·.name == s)

/-- Whether a value belongs to a type; integers are the numbers without a fractional
    part. -/
def accepts (t : Primitive) (v : Json) : Bool :=
  match t, v with
  | null, .null => true
  | boolean, .bool _ => true
  | string, .string _ => true
  | integer, .number n => n.isWhole
  | number, .number _ => true
  | array, .array _ => true
  | object, .object _ => true
  | _, _ => false

@[simp] theorem ofName?_name (t : Primitive) : ofName? t.name = some t := by
  cases t <;> rfl

theorem ofName?_eq_some_iff {s : String} {t : Primitive} : ofName? s = some t ↔ s = t.name := by
  constructor
  · intro h
    unfold ofName? at h
    have hname := List.find?_some h
    exact (eq_of_beq hname).symm
  · rintro rfl
    exact ofName?_name t

theorem name_inj {t t' : Primitive} : t.name = t'.name ↔ t = t' := by
  rw [← ofName?_eq_some_iff, ofName?_name, Option.some.injEq]

end Primitive

end SchemaTypes
