/-
  Strings that mean more than some text.

  The keyword `format` names them; a target represents each kind natively, as text that
  is converted at the boundary, or as plain text.
-/

namespace SchemaTypes

/-- A kind of string with a meaning of its own. -/
inductive Format where
  | dateTime | date | time | uuid | uri | integer | boolean
  deriving DecidableEq, Repr

/-- How a target represents a format. -/
inductive Representation where
  | native
  /-- As text, read and written at the boundary. -/
  | transformed
  /-- As text whose meaning is dropped. -/
  | plain
  deriving DecidableEq, Repr

namespace Format

/-- All formats, in their usual order. -/
def all : List Format := [dateTime, date, time, uuid, uri, integer, boolean]

/-- The place of a format in the usual order. -/
def index : Format → Nat
  | dateTime => 0
  | date => 1
  | time => 2
  | uuid => 3
  | uri => 4
  | integer => 5
  | boolean => 6

/-- The name of a format in results and options. -/
def name : Format → String
  | dateTime => "date-time"
  | date => "date"
  | time => "time"
  | uuid => "uuid"
  | uri => "uri"
  | integer => "integer-string"
  | boolean => "bool-string"

/-- The format of a name. -/
def ofName? (s : String) : Option Format := all.find? (·.name == s)

/-- The name of a format in schemas. -/
def keyword : Format → String
  | integer => "integer"
  | boolean => "boolean"
  | f => f.name

/-- The format that the keyword `format` names. -/
def ofKeyword? (s : String) : Option Format := all.find? (·.keyword == s)

@[simp] theorem ofName?_name (f : Format) : ofName? f.name = some f := by cases f <;> rfl

@[simp] theorem ofKeyword?_keyword (f : Format) : ofKeyword? f.keyword = some f := by
  cases f <;> rfl

theorem mem_all (f : Format) : f ∈ all := by cases f <;> decide

/-! ## Order -/

theorem index_injective {f g : Format} (h : f.index = g.index) : f = g := by
  cases f <;> cases g <;> first | rfl | exact absurd h (by decide)

instance : LE Format := ⟨fun f g => f.index ≤ g.index⟩

instance : LT Format := ⟨fun f g => f.index < g.index⟩

instance : DecidableLT Format := fun f g => inferInstanceAs (Decidable (f.index < g.index))

instance : Std.IsLinearOrder Format where
  le_refl f := Nat.le_refl f.index
  le_trans _ _ _ := Nat.le_trans
  le_antisymm _ _ h h' := index_injective (Nat.le_antisymm h h')
  le_total f g := Nat.le_total f.index g.index

instance : Std.LawfulOrderLT Format where
  lt_iff f g := Nat.lt_iff_le_and_not_ge (m := f.index) (n := g.index)

end Format

namespace Representation

/-- The name of a representation in options. -/
def name : Representation → String
  | native => "native"
  | transformed => "transformed"
  | plain => "plain"

/-- The representation of a name. -/
def ofName? (s : String) : Option Representation :=
  [native, transformed, plain].find? (·.name == s)

end Representation

end SchemaTypes
