/-
  Categories of union members.

  A flat union has at least two members, of pairwise different categories
  (`Graph.isFlat`).  All object types are one category, each format is one of its own;
  unions and intersections, the type of all values and the type of none have no category
  and are no members of a flat union.
-/
import SchemaTypes.Graph

namespace SchemaTypes

/-- What tells the members of a flat union apart. -/
inductive Category where
  | array | bool | double | enumeration | integer | null | object | string
  | formatted (format : Format)
  deriving DecidableEq

namespace Category

/-- All categories, in the order in which merged members are made. -/
def all : List Category :=
  [array, bool, double, enumeration, integer, null, object, string] ++
    [.boolean, .date, .dateTime, .integer, .time, .uri, .uuid].map formatted

theorem mem_all (c : Category) : c ∈ all := by
  cases c with
  | formatted f => cases f <;> decide
  | _ => decide

end Category

/-- The category of a kind. -/
def Kind.category? : Kind → Option Category
  | nothing | any | union _ | intersection _ => none
  | null => some .null
  | bool => some .bool
  | integer => some .integer
  | double => some .double
  | string _ => some .string
  | formatted f => some (.formatted f)
  | enumeration _ => some .enumeration
  | array _ => some .array
  | object _ _ | record _ | map _ => some .object

namespace Graph

/-- Whether nodes can be the members of a flat union: at least two, of pairwise different
    categories, and not both kinds of numbers where those are conflated. -/
def areFlatMembers (g : Graph) (conflateNumbers : Bool) (ms : List NodeId) : Bool :=
  let categories := ms.map fun m => (g.kind m).category?
  decide (2 ≤ ms.length) && !categories.contains none && decide categories.Nodup &&
    !(conflateNumbers && categories.contains (some .integer) &&
      categories.contains (some .double))

/-- Whether a node is a flat union, or no union at all. -/
def isFlat (g : Graph) (conflateNumbers : Bool) (r : NodeId) : Bool :=
  match g.kind r with
  | .union ms => g.areFlatMembers conflateNumbers ms.toList
  | _ => true

end Graph

end SchemaTypes
