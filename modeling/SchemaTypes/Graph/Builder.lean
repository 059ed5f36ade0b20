/-
  Construction of graphs.

  A builder shares primitive types: asking for one twice gives one node, with the
  attributes of both requests (`primitive`).  All other types are new nodes each time.
  An intersection can be made before its members are known (`newIntersection`), so that
  its members may refer to it.
-/
import SchemaTypes.Graph

namespace SchemaTypes

/-- A graph under construction. -/
structure Builder where
  graph : Graph
  /-- The nodes of the primitive types asked for so far. -/
  primitives : OrderedMap Kind NodeId
  /-- Whether every property is made optional. -/
  allOptional : Bool

namespace Builder

/-- Nothing is built yet. -/
def new (allOptional : Bool := false) : Builder := ⟨∅, ∅, allOptional⟩

/-- Adds a node. -/
def add (b : Builder) (n : Node) : NodeId × Builder :=
  (b.graph.size, { b with graph := b.graph.push n })

/-- A node of a kind; if the kind is primitive, the node for it. -/
def primitive (b : Builder) (k : Kind) (a : Attributes) : NodeId × Builder :=
  if k.isPrimitive then
    match b.primitives.get? k with
    | some r => (r, { b with graph := b.graph.addAttributes r a })
    | none =>
      let (r, b) := b.add (.new k a)
      (r, { b with primitives := b.primitives.insert k r })
  else b.add (.new k a)

/-- The node for all strings, or a new one for the given ones. -/
def string (b : Builder) (cases : Option (SortedSet String)) (a : Attributes) :
    NodeId × Builder :=
  b.primitive (.string cases) a

/-- The properties as they are entered: all optional where that is asked for. -/
def adjust (b : Builder) (ps : Properties) : Properties :=
  if b.allOptional then ps.mapValues ({ · with optional := true }) else ps

/-- A new array type. -/
def array (b : Builder) (items : NodeId) (a : Attributes) : NodeId × Builder :=
  b.add (.new (.array items) a)

/-- A new type of objects. -/
def object (b : Builder) (ps : Properties) (additional : Option NodeId) (a : Attributes) :
    NodeId × Builder :=
  b.add (.new (.object (b.adjust ps) additional) a)

/-- A new class. -/
def record (b : Builder) (ps : Properties) (a : Attributes) (fixed : Bool) : NodeId × Builder :=
  b.add { Node.new (.record (b.adjust ps)) a with fixed }

/-- A new type of maps. -/
def map (b : Builder) (values : NodeId) (a : Attributes) : NodeId × Builder :=
  b.add (.new (.map values) a)

/-- A new enumeration. -/
def enumeration (b : Builder) (cases : SortedSet String) (a : Attributes) : NodeId × Builder :=
  b.add (.new (.enumeration cases) a)

/-- A new union. -/
def union (b : Builder) (members : SortedSet NodeId) (a : Attributes) : NodeId × Builder :=
  b.add (.new (.union members) a)

/-- A new intersection without members. -/
def newIntersection (b : Builder) (a : Attributes) : NodeId × Builder :=
  b.add (.new (.intersection ∅) a)

/-- Sets the members of an intersection; any other node is left alone. -/
def setMembers (b : Builder) (r : NodeId) (members : SortedSet NodeId) : Builder :=
  if (b.graph.kind r).isIntersection then
    { b with graph := b.graph.setKind r (.intersection members) }
  else b

/-- Joins attributes to those of a node. -/
def addAttributes (b : Builder) (r : NodeId) (a : Attributes) : Builder :=
  { b with graph := b.graph.addAttributes r a }

/-- Adds a top level, unless its name is taken; and says whether it was added. -/
def addTopLevel (b : Builder) (name : String) (r : NodeId) : Bool × Builder :=
  let (added, g) := b.graph.addTopLevel name r
  (added, { b with graph := g })

end Builder

end SchemaTypes
