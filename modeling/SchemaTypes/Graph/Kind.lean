/-
  What a type is made of.

  A type of the graph is a node; its kind says what it admits, in terms of other nodes.

  * `Kind.children` are the nodes that a kind refers to, in order;
  * `Kind.mapChildren` renames them (`mem_children_mapChildren`);
  * `Kind.same` compares kinds without regard to the order of properties.
-/
import SchemaTypes.SortedSet
import SchemaTypes.OrderedMap
import SchemaTypes.Format

namespace SchemaTypes

/-- A node of a graph, by its place there. -/
abbrev NodeId := Nat

/-- A property of an object. -/
structure Property where
  type : NodeId
  /-- Whether the property may be absent. -/
  optional : Bool
  deriving DecidableEq

/-- Properties by name, in order. -/
abbrev Properties := OrderedMap String Property

/-- The kind of a type. -/
inductive Kind where
  /-- No values were observed. -/
  | nothing
  | any
  | null
  | bool
  | integer
  | double
  /-- All strings, or the given ones. -/
  | string (cases : Option (SortedSet String))
  /-- The strings of a format. -/
  | formatted (format : Format)
  /-- Exactly the given strings. -/
  | enumeration (cases : SortedSet String)
  | array (items : NodeId)
  /-- Objects with named properties and perhaps more. -/
  | object (properties : Properties) (additional : Option NodeId)
  /-- A class: objects with named properties alone. -/
  | record (properties : Properties)
  /-- Objects whose properties are all of one type. -/
  | map (values : NodeId)
  | union (members : SortedSet NodeId)
  | intersection (members : SortedSet NodeId)
  deriving DecidableEq

/-- The properties with their types renamed. -/
def Properties.mapTypes (f : NodeId → NodeId) (ps : Properties) : Properties :=
  ps.mapValues fun p => { p with type := f p.type }

/-- The types of the properties, in order. -/
def Properties.types (ps : Properties) : List NodeId := ps.values.map Property.type

@[simp] theorem Properties.types_mapTypes (f : NodeId → NodeId) (ps : Properties) :
    (ps.mapTypes f).types = ps.types.map f := by
  simp [mapTypes, types, OrderedMap.mapValues, OrderedMap.values, Function.comp_def]

namespace Kind

/-- The name of a kind. -/
def name : Kind → String
  | nothing => "none"
  | any => "any"
  | null => "null"
  | bool => "bool"
  | integer => "integer"
  | double => "double"
  | string _ => "string"
  | formatted _ => "transformed"
  | enumeration _ => "enum"
  | array _ => "array"
  | object _ _ => "object"
  | record _ => "class"
  | map _ => "map"
  | union _ => "union"
  | intersection _ => "intersection"

/-- Whether the kind alone tells one type of it from another: it has no children and no
    cases. -/
def isPrimitive : Kind → Bool
  | nothing | any | null | bool | integer | double | string none | formatted _ => true
  | _ => false

/-- Whether the values are objects. -/
def isObjectLike : Kind → Bool
  | object _ _ | record _ | map _ => true
  | _ => false

/-- Whether the values are strings. -/
def isStringLike : Kind → Bool
  | string _ | formatted _ | enumeration _ => true
  | _ => false

/-- Whether the kind is a union. -/
def isUnion : Kind → Bool
  | union _ => true
  | _ => false

/-- Whether the kind is an intersection. -/
def isIntersection : Kind → Bool
  | intersection _ => true
  | _ => false

/-! ## Children -/

/-- The nodes that the kind refers to, in order. -/
def children : Kind → List NodeId
  | array items => [items]
  | object ps additional => ps.types ++ additional.toList
  | record ps => ps.types
  | map values => [values]
  | union ms | intersection ms => ms.toList
  | _ => []

/-- The members of a union; no other kind has any. -/
def unionMembers : Kind → List NodeId
  | union ms => ms.toList
  | _ => []

/-- The members of an intersection; no other kind has any. -/
def intersectionMembers : Kind → List NodeId
  | intersection ms => ms.toList
  | _ => []

/-- The kind with its children renamed. -/
def mapChildren (f : NodeId → NodeId) : Kind → Kind
  | array items => array (f items)
  | object ps additional => object (ps.mapTypes f) (additional.map f)
  | record ps => record (ps.mapTypes f)
  | map values => map (f values)
  | union ms => union (ms.map f)
  | intersection ms => intersection (ms.map f)
  | k => k

/-- Renaming children renames all of them and adds none. -/
theorem mem_children_mapChildren (f : NodeId → NodeId) (k : Kind) (r : NodeId) :
    r ∈ (k.mapChildren f).children ↔ ∃ c ∈ k.children, f c = r := by
  cases k with
  | object ps additional =>
    cases additional <;> simp [mapChildren, children, or_and_right, exists_or, eq_comm (a := r)]
  | union ms => simp [mapChildren, children]
  | intersection ms => simp [mapChildren, children]
  | array items => simp [mapChildren, children, eq_comm]
  | map values => simp [mapChildren, children, eq_comm]
  | record ps => simp [mapChildren, children]
  | _ => simp [mapChildren, children]

/-- The kind with its properties in the order of their names. -/
def sortProperties : Kind → Kind
  | object ps additional => object (ps.sortKeys (decide <| · ≤ ·)) additional
  | record ps => record (ps.sortKeys (decide <| · ≤ ·))
  | k => k

/-! ## Comparison -/

/-- Equality without regard to the order of properties. -/
def same : Kind → Kind → Bool
  | object ps a, object qs b => ps.same qs && a == b
  | record ps, record qs => ps.same qs
  | k, l => k == l

end Kind

end SchemaTypes
