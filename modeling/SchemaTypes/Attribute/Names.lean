/-
  Candidate names of a type.

  A type collects names and alternatives.  Given names beat inferred ones; of two
  collections of one kind the union counts (`Names.add`), and past a thousand names
  they are given up.  `combined` makes one name of many: the longest common beginning,
  if it is long enough.
-/
import SchemaTypes.SortedSet
import SchemaTypes.Reference
import SchemaTypes.Text.Alphanumeric

namespace SchemaTypes

open Text

/-- Candidate names. -/
inductive Names where
  | regular (names alternatives : SortedSet String) (inferred : Bool)
  /-- More names than are worth keeping. -/
  | tooMany (inferred : Bool)
  deriving DecidableEq

/-! ## Single names -/

/-- Whether a row of characters ends with a text. -/
def endsWith (cs : List Char) (suffix : String) : Bool := suffix.toList.isSuffixOf cs

/-- The singular of a name, after English spelling; a name that looks like no plural
    becomes the name of an element. -/
def singular (name : String) : String :=
  let cs := name.toList
  if endsWith cs "ies" && 3 < cs.length then String.ofList (cs.take (cs.length - 3)) ++ "y"
  else if ["sses", "xes", "ches", "shes"].any (endsWith cs) then
    String.ofList (cs.take (cs.length - 2))
  else if endsWith cs "s" && !endsWith cs "ss" && 1 < cs.length then
    String.ofList (cs.take (cs.length - 1))
  else name ++ "Element"

/-- The beginning of `a` that `b` shares, whatever the case of ASCII letters; as
    written in `a`. -/
def commonBeginning : List Char → List Char → List Char
  | a :: as, b :: bs => if a.toLower = b.toLower then a :: commonBeginning as bs else []
  | _, _ => []

/-- The least length of a common beginning that serves as a name. -/
def beginningMin : Nat := 3

/-- One name for several: their common beginning up to its last letter or numeral, if
    that is long enough, else the first. -/
def combineNames : List String → String
  | [] => Reference.placeholderName
  | [only] => only
  | first :: rest =>
    let common := rest.foldl (fun acc n => commonBeginning acc n.toList) first.toList
    let trimmed := (common.reverse.dropWhile fun c => !isAlphanumeric c).reverse
    if beginningMin ≤ trimmed.length then String.ofList trimmed else first

namespace Names

/-- The largest number of names that is kept. -/
def limit : Nat := 1000

/-- Names, unless there are too many. -/
def make (names alternatives : SortedSet String) (inferred : Bool) : Names :=
  if limit < names.size then tooMany inferred else regular names alternatives inferred

/-- One name. -/
def single (name : String) (inferred : Bool) : Names :=
  make (.singleton name) ∅ inferred

/-- Whether the names are inferred. -/
def areInferred : Names → Bool
  | regular _ _ i | tooMany i => i

/-- The names without alternatives. -/
def names : Names → SortedSet String
  | regular ns _ _ => ns
  | tooMany _ => ∅

/-- Both collections; given names beat inferred ones. -/
def add (a b : Names) : Names :=
  if !a.areInferred && b.areInferred then a
  else if a.areInferred && !b.areInferred then b
  else
    match a, b with
    | regular ns as i, regular ms bs _ => make (ns ∪ ms) (as ∪ bs) i
    | a, _ => tooMany a.areInferred

/-- The same names, inferred. -/
def makeInferred : Names → Names
  | regular ns as _ => regular ns as true
  | tooMany _ => tooMany true

/-- The singulars, inferred. -/
def singularize : Names → Names
  | regular ns as _ => make (ns.map singular) (as.map singular) true
  | tooMany _ => tooMany true

/-- One name for all. -/
def combined : Names → String
  | regular ns _ _ => combineNames ns.toList
  | tooMany _ => Reference.placeholderName

/-- Appends the elements that are not there yet. -/
def appendNew (l : List String) (more : List String) : List String :=
  more.foldl (fun acc n => if n ∈ acc then acc else acc ++ [n]) l

/-- The names to try for a type, in order: the combined one, the names, the
    alternatives. -/
def proposed : Names → List String
  | n@(regular ns as _) => appendNew [n.combined] (ns.toList ++ as.toList)
  | tooMany _ => [Reference.placeholderName]

/-- No more names than are kept: what `make` and all operations give. -/
def Bounded : Names → Prop
  | regular ns _ _ => ns.size ≤ limit
  | tooMany _ => True

end Names

end SchemaTypes
