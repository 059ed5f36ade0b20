/-
  Types without values, and properties that may be absent.

  * `nothingToAny` lets types without observed values admit all;
  * `optionalToNullable` makes every optional property a required one that may be null.
-/
import SchemaTypes.Graph.Texts

namespace SchemaTypes.Graph

/-- Types without observed values admit all values. -/
def nothingToAny (g : Graph) : Graph :=
  g.mapKinds fun k => if k = .nothing then .any else k

/-- Whether a type admits null, as far as its kind and its members tell. -/
def isNullable (g : Graph) (r : NodeId) : Bool :=
  match g.kind r with
  | .null | .any => true
  | .union ms => ms.toList.any fun m => g.kind m = .null
  | _ => false

/-- What the pass has come to: the graph, the node that it made for null, and the nullable
    types that it made. -/
structure Nullables where
  graph : Graph
  null : Option NodeId
  made : OrderedMap NodeId NodeId

namespace Nullables

/-- The node for null. -/
def nullNode (s : Nullables) : NodeId × Nullables :=
  match s.null with
  | some r => (r, s)
  | none =>
    let r := s.graph.size
    (r, { s with graph := s.graph.push (.new .null), null := some r })

/-- A type that admits what a type admits, and null. -/
def nullable (s : Nullables) (r : NodeId) : NodeId × Nullables :=
  if s.graph.isNullable r then (r, s)
  else
    match s.made.get? r with
    | some n => (n, s)
    | none =>
      let (null, s) := s.nullNode
      let members := match s.graph.kind r with
        | .union ms => ms
        | _ => .singleton r
      let n := s.graph.size
      (n, { s with
        graph := s.graph.push (.new (.union (members.insert null)))
        made := s.made.insert r n })

/-- Requires every property, of a nullable type where it was optional. -/
def requireAll : Properties → List (String × Property) → Nullables → Properties × Nullables
  | done, [], s => (done, s)
  | done, (name, p) :: rest, s =>
    if p.optional then
      let (type, s) := s.nullable p.type
      requireAll (done.insert name ⟨type, false⟩) rest s
    else requireAll (done.insert name p) rest s

/-- Requires every property of a node. -/
def step (s : Nullables) (r : NodeId) : Nullables :=
  match s.graph.kind r with
  | .record ps =>
    let (ps, s) := requireAll ∅ ps.entries s
    { s with graph := s.graph.setKind r (.record ps) }
  | .object ps additional =>
    let (ps, s) := requireAll ∅ ps.entries s
    { s with graph := s.graph.setKind r (.object ps additional) }
  | _ => s

end Nullables

/-- Makes optional properties required ones that may be null. -/
def optionalToNullable (g : Graph) : Graph :=
  (g.ids.foldl Nullables.step ⟨g, none, ∅⟩).graph

end SchemaTypes.Graph
