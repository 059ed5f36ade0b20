/-
  Enumerations, plain strings and formats.

  * `expandStrings` makes enumerations or plain strings of the types of listed strings;
  * `absorbStrings` drops string types from unions that admit all strings anyway;
  * `representFormats` represents formats as the target does.
-/
import SchemaTypes.Graph

namespace SchemaTypes

/-- Which types of listed strings become enumerations. -/
inductive EnumInference where
  | all
  /-- Those of few strings. -/
  | few
  | none
  deriving DecidableEq

namespace EnumInference

/-- The most strings that are few. -/
def fewMax : Nat := 20

/-- Whether listed strings become an enumeration. -/
def accepts : EnumInference → SortedSet String → Bool
  | all, _ => true
  | few, cases => !cases.isEmpty && decide (cases.size ≤ fewMax)
  | none, _ => false

end EnumInference

namespace Graph

/-- The kind that a type of listed strings becomes; others stay. -/
def expandString (inference : EnumInference) : Kind → Kind
  | .string (some cases) =>
    if inference.accepts cases then .enumeration cases else .string none
  | k => k

/-- Changes the kinds of all nodes. -/
def mapKinds (g : Graph) (f : Kind → Kind) : Graph :=
  { g with nodes := g.nodes.map fun n => { n with kind := f n.kind } }

/-- Makes enumerations or plain strings of listed strings. -/
def expandStrings (inference : EnumInference) (g : Graph) : Graph :=
  g.mapKinds (expandString inference)

/-! ## Strings in unions -/

/-- What absorbing has come to: the graph, and where the references to unions of a single
    member go. -/
structure Absorption where
  graph : Graph
  redirection : Redirection

/-- Drops the string types from a union that has all strings among its members. -/
def Absorption.step (s : Absorption) (u : NodeId) : Absorption :=
  let g := s.graph
  match (g.kind u).unionMembers.find? fun m => g.kind m = .string none with
  | none => s
  | some text =>
    let members := (g.kind u).unionMembers
    let kept := members.filter fun m => m == text || !(g.kind m).isStringLike
    if kept.length = members.length then s
    else if kept.length = 1 then
      { graph := g.addAttributes text (g.attributes u)
        redirection := s.redirection.insert u text }
    else { s with graph := g.setKind u (.union (.ofList kept)) }

/-- Drops string types from unions that have all strings among their members. -/
def absorbStrings (g : Graph) : Graph :=
  let s := g.ids.foldl Absorption.step ⟨g, ∅⟩
  s.graph.forward s.redirection

/-! ## Formats -/

/-- A node with its format represented. -/
def representFormat (representation : Format → Representation) (n : Node) : Node :=
  match n.kind with
  | .formatted f =>
    match representation f with
    | .native => n
    | .transformed =>
      { n with kind := .string none, attributes := { n.attributes with transformation := some f } }
    | .plain => { n with kind := .string none }
  | _ => n

/-- Represents all formats. -/
def representFormats (representation : Format → Representation) (g : Graph) : Graph :=
  { g with nodes := g.nodes.map (representFormat representation) }

end Graph

end SchemaTypes
