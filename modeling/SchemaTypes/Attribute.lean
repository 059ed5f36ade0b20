/-
  What is known about a type besides its kind.

  Attributes are independent categories; where one is missing, combining leaves the
  other side's.  `combine` is used when types are merged: bounds are joined if the
  merged type admits what either admitted and met if it admits what both did, everything
  else is combined in the same way for both.
-/
import SchemaTypes.SortedMap
import SchemaTypes.Format
import SchemaTypes.Attribute.Names
import SchemaTypes.Attribute.Bounds

namespace SchemaTypes

/-- Protocols and file extensions of a URI. -/
structure UriAttributes where
  protocols : SortedSet String
  extensions : SortedSet String
  deriving DecidableEq

/-- The attributes of a type. -/
structure Attributes where
  names : Option Names
  descriptions : SortedSet String
  propertyDescriptions : SortedMap String (SortedSet String)
  accessorNames : SortedMap String String
  caseAccessor : Option String
  enumValueNames : SortedMap String String
  uri : Option UriAttributes
  minMax : Option Bounds
  minMaxLength : Option Bounds
  pattern : Option String
  /-- The format that a plain string is converted to and from at the boundary. -/
  transformation : Option Format
  deriving DecidableEq

/-- What a merged type admits. -/
inductive Combination where
  /-- What either side admits. -/
  | union
  /-- What both sides admit. -/
  | intersection
  deriving DecidableEq

namespace UriAttributes

/-- No protocols and no extensions. -/
def empty : UriAttributes := ⟨∅, ∅⟩

/-- All protocols and extensions of both sides. -/
def union (a b : UriAttributes) : UriAttributes :=
  ⟨a.protocols ∪ b.protocols, a.extensions ∪ b.extensions⟩

end UriAttributes

namespace Attributes

/-- No attributes. -/
def empty : Attributes := ⟨none, ∅, ∅, ∅, none, ∅, none, none, none, none, none⟩

instance : EmptyCollection Attributes := ⟨empty⟩

instance : Inhabited Attributes := ⟨∅⟩

/-- Equality, with bounds compared as numbers: up to the sign of zero, and never where one is not a
    number. -/
def same (a b : Attributes) : Bool :=
  a.minMax == b.minMax && a.minMaxLength == b.minMaxLength &&
    { a with minMax := none, minMaxLength := none } ==
      { b with minMax := none, minMaxLength := none }

/-- Whether there are no attributes. -/
def isEmpty (a : Attributes) : Bool := a == ∅

/-- Only names. -/
def ofNames (names : Names) : Attributes := { empty with names := some names }

/-- Only one name. -/
def named (name : String) (inferred : Bool) : Attributes := ofNames (.single name inferred)

/-- Only a description. -/
def described (text : String) : Attributes :=
  { empty with descriptions := .singleton text }

/-! ## Combining -/

/-- Both values combined, or the one that is there. -/
def mergeOptions {α : Type} (f : α → α → α) : Option α → Option α → Option α
  | some a, some b => some (f a b)
  | some a, none => some a
  | none, b => b

/-- How bounds are combined. -/
def boundsOf : Combination → Bounds → Bounds → Bounds
  | .union => Bounds.join
  | .intersection => Bounds.meet

/-- Two patterns that differ cancel each other. -/
def mergePatterns : Option String → Option String → Option String
  | some a, some b => if a = b then some a else none
  | some a, none => some a
  | none, b => b

/-- The attributes of a merged type. -/
def combine (how : Combination) (a b : Attributes) : Attributes where
  names := mergeOptions .add a.names b.names
  descriptions := a.descriptions ∪ b.descriptions
  propertyDescriptions := a.propertyDescriptions.merge (· ∪ ·) b.propertyDescriptions
  accessorNames := a.accessorNames.merge (fun x _ => x) b.accessorNames
  caseAccessor := a.caseAccessor.or b.caseAccessor
  enumValueNames := a.enumValueNames.merge (fun x _ => x) b.enumValueNames
  uri := mergeOptions .union a.uri b.uri
  minMax := mergeOptions (boundsOf how) a.minMax b.minMax
  minMaxLength := mergeOptions (boundsOf how) a.minMaxLength b.minMaxLength
  pattern := mergePatterns a.pattern b.pattern
  transformation := a.transformation.or b.transformation

/-- The attributes of a type that admits what either side admits. -/
def union (a b : Attributes) : Attributes := combine .union a b

instance : Union Attributes := ⟨union⟩

/-- The union of many. -/
def unionAll (l : List Attributes) : Attributes := l.foldl union ∅

/-! ## Names alone -/

/-- Only the names, inferred. -/
def makeInferred (a : Attributes) : Attributes :=
  { empty with names := a.names.map .makeInferred }

/-- Only the singulars of the names. -/
def singularized (a : Attributes) : Attributes :=
  { empty with names := a.names.map .singularize }

/-- Whether there are names and they were given. -/
def hasGivenNames (a : Attributes) : Bool :=
  match a.names with
  | some names => !names.areInferred
  | none => false

end Attributes

end SchemaTypes
