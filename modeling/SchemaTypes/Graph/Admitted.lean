/-
  Coarse descriptions of what types admit.

  `Admitted` says which primitive values a type admits, which strings and formats, and
  from which types the items of arrays and the properties of objects come.  `join` admits
  what either side admits, `meet` what both do.

  For arrays and objects a description is a list of alternatives, each a set of nodes: the
  value has to be admitted by some node of every set.
-/
import SchemaTypes.Graph.Walk

namespace SchemaTypes

/-- Strings that are admitted as such. -/
inductive Texts where
  /-- No strings are admitted as such. -/
  | nothing
  | all
  /-- Those of a list, which may be empty once lists were met. -/
  | only (cases : SortedSet String)
  deriving DecidableEq

/-- Alternatives: some node of every set. -/
abbrev Alternatives := List (SortedSet NodeId)

/-- What a type admits. -/
structure Admitted where
  null : Bool
  bool : Bool
  integer : Bool
  double : Bool
  texts : Texts
  formats : SortedSet Format
  /-- The types of the items, where arrays are admitted. -/
  arrays : Option Alternatives
  /-- The object types, where objects are admitted. -/
  objects : Option Alternatives
  deriving DecidableEq

namespace Texts

/-- The strings of both. -/
def meet : Texts → Texts → Texts
  | nothing, _ | _, nothing => nothing
  | all, t => t
  | t, all => t
  | only a, only b => only (a.inter b)

/-- The strings of either. -/
def join : Texts → Texts → Texts
  | nothing, t => t
  | t, nothing => t
  | only a, only b => only (a ∪ b)
  | _, _ => all

end Texts

namespace Alternatives

/-- The sets of both lists. -/
def meet : Option Alternatives → Option Alternatives → Option Alternatives
  | some a, some b => some (b.foldl (fun l s => if s ∈ l then l else l ++ [s]) a)
  | _, _ => none

/-- One set of all nodes; a list without sets demands nothing. -/
def join : Option Alternatives → Option Alternatives → Option Alternatives
  | some a, some b =>
    if a.isEmpty || b.isEmpty then some [] else some [.ofList ((a ++ b).flatMap (·.toList))]
  | some a, none => some a
  | none, b => b

end Alternatives

namespace Admitted

/-- Nothing is admitted. -/
def nothing : Admitted := ⟨false, false, false, false, .nothing, ∅, none, none⟩

/-- What both sides admit.  An integer is a double, and a string of a format is a
    string. -/
def meet (a b : Admitted) : Admitted where
  null := a.null && b.null
  bool := a.bool && b.bool
  integer := (a.integer && (b.integer || b.double)) || (b.integer && a.double)
  double := a.double && b.double
  texts := a.texts.meet b.texts
  formats :=
    a.formats.inter b.formats ∪ (if a.texts = .all then b.formats else ∅) ∪
      (if b.texts = .all then a.formats else ∅)
  arrays := Alternatives.meet a.arrays b.arrays
  objects := Alternatives.meet a.objects b.objects

/-- What either side admits. -/
def join (a b : Admitted) : Admitted where
  null := a.null || b.null
  bool := a.bool || b.bool
  integer := a.integer || b.integer
  double := a.double || b.double
  texts := a.texts.join b.texts
  formats := a.formats ∪ b.formats
  arrays := Alternatives.join a.arrays b.arrays
  objects := Alternatives.join a.objects b.objects

/-- What a node of a kind admits, unions apart; `none` for everything.  An unresolved
    intersection admits everything if that is forced, else nothing. -/
def ofKind (forced : Bool) (r : NodeId) : Kind → Option Admitted
  | .any => none
  | .intersection _ => if forced then none else some nothing
  | .nothing | .union _ => some nothing
  | .null => some { nothing with null := true }
  | .bool => some { nothing with bool := true }
  | .integer => some { nothing with integer := true }
  | .double => some { nothing with double := true }
  | .string none => some { nothing with texts := .all }
  | .string (some cases) | .enumeration cases => some { nothing with texts := .only cases }
  | .formatted f => some { nothing with formats := .singleton f }
  | .array items => some { nothing with arrays := some [.singleton items] }
  | .object _ _ | .record _ | .map _ => some { nothing with objects := some [.singleton r] }

/-- What some of several descriptions admit; `none` for everything. -/
def joinAll : List (Option Admitted) → Option Admitted
  | [] => some nothing
  | a :: rest => do return (← a).join (← joinAll rest)

/-- What all of several descriptions admit; `none` for everything. -/
def meetAll (l : List (Option Admitted)) : Option Admitted :=
  match l.filterMap id with
  | [] => none
  | a :: rest => some (rest.foldl meet a)

end Admitted

namespace Graph

/-- What a node admits: for a union what any of its nested members admits. -/
def admitted (g : Graph) (forced : Bool) (r : NodeId) : Option Admitted :=
  Admitted.joinAll ((g.walk Kind.unionMembers [r]).map fun m => Admitted.ofKind forced m (g.kind m))

end Graph

end SchemaTypes
