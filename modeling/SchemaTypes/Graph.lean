/-
  Graphs of types.

  A graph is a row of nodes and named top levels among them.  Nodes refer to each other
  by place, so types may be recursive.

  * `push` adds a node, whose place is the size of the graph before;
  * `forward` redirects references along chains;
  * `WellFormed` says that all references are places of nodes;
  * `same` compares graphs without regard to the order of properties and top levels.

  A place without a node counts as a type without values.
-/
import SchemaTypes.Graph.Kind
import SchemaTypes.Attribute

namespace SchemaTypes

/-- A node: a type with what is known about it. -/
structure Node where
  kind : Kind
  attributes : Attributes
  /-- Whether a schema prescribes the shape: such classes are left alone. -/
  fixed : Bool
  /-- The final name, once it is assigned. -/
  name : Option String
  deriving DecidableEq

/-- Types that refer to each other, and the named ones at the top. -/
structure Graph where
  nodes : Array Node
  topLevels : OrderedMap String NodeId
  deriving DecidableEq

namespace Node

/-- A node of a kind that is not fixed and has no name. -/
def new (kind : Kind) (attributes : Attributes := ∅) : Node := ⟨kind, attributes, false, none⟩

/-- Equality without regard to the order of properties. -/
def same (a b : Node) : Bool :=
  a.kind.same b.kind && a.attributes.same b.attributes && a.fixed == b.fixed && a.name == b.name

instance : Inhabited Node := ⟨new .nothing⟩

end Node

namespace Graph

/-- The graph without nodes. -/
def empty : Graph := ⟨#[], ∅⟩

instance : EmptyCollection Graph := ⟨empty⟩

instance : Inhabited Graph := ⟨∅⟩

/-- The number of nodes. -/
def size (g : Graph) : Nat := g.nodes.size

/-- The node at a place. -/
def node (g : Graph) (r : NodeId) : Node := g.nodes.getD r default

/-- The kind of a node. -/
def kind (g : Graph) (r : NodeId) : Kind := (g.node r).kind

/-- The attributes of a node. -/
def attributes (g : Graph) (r : NodeId) : Attributes := (g.node r).attributes

/-- All places of nodes. -/
def ids (g : Graph) : List NodeId := List.range g.size

/-- The places of the nodes whose kind satisfies `p`. -/
def idsWhere (g : Graph) (p : Kind → Bool) : List NodeId := g.ids.filter fun r => p (g.kind r)

/-- All references are places of nodes. -/
def WellFormed (g : Graph) : Prop :=
  (∀ n ∈ g.nodes, ∀ c ∈ n.kind.children, c < g.size) ∧ ∀ r ∈ g.topLevels.values, r < g.size

/-! ## Nodes -/

/-- Adds a node, at the place that is the size of the graph before. -/
def push (g : Graph) (n : Node) : Graph := { g with nodes := g.nodes.push n }

/-- Changes a node. -/
def modify (g : Graph) (r : NodeId) (f : Node → Node) : Graph :=
  { g with nodes := g.nodes.modify r f }

/-- Replaces the kind of a node. -/
def setKind (g : Graph) (r : NodeId) (k : Kind) : Graph := g.modify r ({ · with kind := k })

/-- Replaces the attributes of a node. -/
def setAttributes (g : Graph) (r : NodeId) (a : Attributes) : Graph :=
  g.modify r ({ · with attributes := a })

/-- Joins attributes to those of a node. -/
def addAttributes (g : Graph) (r : NodeId) (a : Attributes) : Graph :=
  if a.isEmpty then g else g.setAttributes r (g.attributes r ∪ a)

/-- The attributes of several nodes joined. -/
def joinedAttributes (g : Graph) (rs : List NodeId) : Attributes :=
  .unionAll (rs.map g.attributes)

@[simp] theorem size_push (g : Graph) (n : Node) : (g.push n).size = g.size + 1 := by
  simp [push, size]

@[simp] theorem size_modify (g : Graph) (r : NodeId) (f : Node → Node) :
    (g.modify r f).size = g.size := by
  simp [modify, size]

/-- What is at a place after a node was added. -/
theorem node_push (g : Graph) (n : Node) (r : NodeId) :
    (g.push n).node r = if r = g.size then n else g.node r := by
  simp only [node, push, size, Array.getD_eq_getD_getElem?, Array.getElem?_push]
  split <;> rfl

/-- What is at a place after a node was changed. -/
theorem node_modify (g : Graph) (r s : NodeId) (f : Node → Node) (h : s < g.size) :
    (g.modify r f).node s = if r = s then f (g.node s) else g.node s := by
  have hs : s < g.nodes.size := h
  simp only [node, modify, Array.getD_eq_getD_getElem?, Array.getElem?_modify]
  split <;> simp [hs]

@[simp] theorem topLevels_push (g : Graph) (n : Node) : (g.push n).topLevels = g.topLevels := rfl

@[simp] theorem topLevels_modify (g : Graph) (r : NodeId) (f : Node → Node) :
    (g.modify r f).topLevels = g.topLevels := rfl

/-! ## Top levels -/

/-- The top level of a name. -/
def topLevel? (g : Graph) (name : String) : Option NodeId := g.topLevels.get? name

/-- Adds a top level, unless its name is taken; and says whether it was added. -/
def addTopLevel (g : Graph) (name : String) (r : NodeId) : Bool × Graph :=
  if g.topLevels.contains name then (false, g)
  else (true, { g with topLevels := g.topLevels.insert name r })

/-! ## Redirection -/

/-- Where references are redirected to. -/
abbrev Redirection := SortedMap NodeId NodeId

/-- Follows a redirection at most `n` times, but not back to the start and not in place. -/
def Redirection.followFrom (moved : Redirection) (start : NodeId) : Nat → NodeId → NodeId
  | 0, r => r
  | n + 1, r =>
    match moved.get? r with
    | some next => if next = start ∨ next = r then r else moved.followFrom start n next
    | none => r

/-- The end of the chain that starts at a node.  A chain without repetition is no longer
    than the redirection, so that is how far it is followed. -/
def Redirection.follow (moved : Redirection) (r : NodeId) : NodeId :=
  moved.followFrom r moved.toList.length r

/-- Renames the nodes that kinds and top levels refer to. -/
def renameReferences (g : Graph) (f : NodeId → NodeId) : Graph where
  nodes := g.nodes.map fun n => { n with kind := n.kind.mapChildren f }
  topLevels := g.topLevels.mapValues f

/-- Redirects every reference along its chain. -/
def forward (g : Graph) (moved : Redirection) : Graph := g.renameReferences moved.follow

/-! ## Parents -/

/-- The nodes that refer to a node. -/
def parents (g : Graph) (r : NodeId) : List NodeId :=
  g.ids.filter fun p => r ∈ (g.kind p).children

/-! ## Comparison -/

/-- Equality without regard to the order of properties and top levels. -/
def same (g h : Graph) : Bool :=
  g.size == h.size && (g.nodes.toList.zip h.nodes.toList).all (fun p => p.1.same p.2) &&
    g.topLevels.same h.topLevels

end Graph

end SchemaTypes
