/-
  Selections: which parts of a JSON document count.

  A program that knows the fields it needs selects these.  Fields that are not selected
  have only to be well formed.
-/

namespace SchemaTypes.Json

/-- The parts of a value that count. -/
inductive Selection where
  | nothing
  | everything
  /-- The fields of an object by name, or the items of an array in this order. -/
  | fields (known : List (String × Selection))

namespace Selection

/-- Whether no part of a value counts. -/
def isNothing : Selection → Bool
  | nothing => true
  | _ => false

/-- What counts of a field. -/
def field (s : Selection) (key : String) : Selection :=
  match s with
  | fields known => (known.lookup key).getD nothing
  | s => s

/-- What counts of an item; more items than are known count, too. -/
def item (s : Selection) (index : Nat) : Selection :=
  match s with
  | fields known => (known[index]?.map (·.2)).getD everything
  | s => s

end Selection

end SchemaTypes.Json
