/-
  Resolution of intersections.

  An intersection is replaced by the type that admits what all its members admit
  (`resolve`).  That can take further intersections, of the items of arrays and the
  properties of objects; so resolution goes in rounds.

  A node that was made for a set of members keeps standing for it (`intersections`,
  `unions`, `objects`), also once it is resolved: recursive types close back on it.
-/
import SchemaTypes.Graph.Admitted
import SchemaTypes.Graph.Unify

namespace SchemaTypes

/-- A graph under resolution, and the nodes that stand for sets of members. -/
structure Resolution where
  graph : Graph
  intersections : OrderedMap (SortedSet NodeId) NodeId
  unions : OrderedMap (SortedSet NodeId) NodeId
  objects : OrderedMap (SortedSet NodeId) NodeId

/-- A step of resolution. -/
abbrev ResolutionM := StateM Resolution

/-- A part of a resolved type. -/
inductive Part where
  | new (kind : Kind)
  | existing (node : NodeId)

namespace Graph

/-- The intersections that the top levels lead to, by place. -/
def reachableIntersections (g : Graph) : List NodeId :=
  (SortedSet.ofList (g.reachable.filter fun r => (g.kind r).isIntersection)).toList

/-- The members of an intersection, those of nested intersections included. -/
def expandedMembers (g : Graph) (r : NodeId) : List NodeId :=
  (g.walk Kind.intersectionMembers [r]).filter fun m => !(g.kind m).isIntersection

/-- The attributes of an intersection, combined with those of its members. -/
def metAttributes (g : Graph) (r : NodeId) (members : List NodeId) : Attributes :=
  members.foldl (fun a m => .combine .intersection a (g.attributes m)) (g.attributes r)

/-- Whether a node is an unresolved intersection, or a union with one among its nested
    members. -/
def awaitsIntersection (g : Graph) (r : NodeId) : Bool :=
  (g.walk Kind.unionMembers [r]).any fun m => (g.kind m).isIntersection

end Graph

namespace Resolution

/-- Nothing is resolved yet. -/
def ofGraph (g : Graph) : Resolution := ⟨g, ∅, ∅, ∅⟩

/-! ## Nodes for sets of members -/

/-- Adds a node. -/
def add (n : Node) : ResolutionM NodeId :=
  fun s => (s.graph.size, { s with graph := s.graph.push n })

/-- The node for the intersection of nodes. -/
def intersectionOf (members : SortedSet NodeId) : ResolutionM NodeId :=
  match members.toList with
  | [only] => return only
  | _ => do
    match (← get).intersections.get? members with
    | some r => return r
    | none =>
      let r ← add (.new (.intersection members))
      modify fun s => { s with intersections := s.intersections.insert members r }
      return r

/-- The node for the union of nodes. -/
def unionOf (members : SortedSet NodeId) : ResolutionM NodeId := do
  let s ← get
  let (r, g) := s.graph.unionOf members
  if members.size < 2 then
    set { s with graph := g }
    return r
  else
    match s.unions.get? members with
    | some r => return r
    | none =>
      set { s with graph := g, unions := s.unions.insert members r }
      return r

/-- The object type that admits what any of some object types admits. -/
def objectOf (members : SortedSet NodeId) : ResolutionM NodeId :=
  match members.toList with
  | [only] => return only
  | _ => do
    let s ← get
    match s.objects.get? members with
    | some r => return r
    | none =>
      let (n, g) := s.graph.unifyObjects members.toList
      let r := g.size
      set { s with graph := g.push n, objects := s.objects.insert members r }
      return r

/-! ## Resolved kinds -/

/-- Adds the intersected property of each name to the properties: optional only if no
    view requires it. -/
def meetProperties (views : List ObjectView) : List String → Properties →
    ResolutionM Properties
  | [], ps => return ps
  | name :: rest, ps => do
    let type ← intersectionOf (ObjectView.typesOf views name)
    let optional := !views.any fun v => v.requires name
    meetProperties views rest (ps.insert name ⟨type, optional⟩)

/-- An object type that admits what all of some object types admit.  Additional properties
    remain only if every one allows them. -/
def meetObjects (rs : List NodeId) : ResolutionM Kind := do
  let g := (← get).graph
  let views := rs.filterMap fun r => (g.kind r).objectView?
  let ps ← meetProperties views (ObjectView.names views) ∅
  if views.all fun v => v.additional.isSome then
    let additional ← intersectionOf (.ofList (views.filterMap (·.additional)))
    return .object ps (some additional)
  else return .object ps none

/-- The primitive kinds and strings of a description. -/
def primitiveParts (a : Admitted) : List Kind :=
  (if a.null then [.null] else []) ++ (if a.bool then [.bool] else []) ++
    (if a.integer then [.integer] else []) ++ (if a.double then [.double] else []) ++
    (match a.texts with
      | .nothing => []
      | .all => [.string none]
      | .only cases => if cases.isEmpty then [] else [.string (some cases)]) ++
    a.formats.toList.map .formatted

/-- Arrays with items from all alternatives. -/
def arrayPart (alternatives : Alternatives) : ResolutionM Part := do
  if alternatives.isEmpty then
    return .new (.array (← add (.new .any)))
  else
    let items ← alternatives.mapM unionOf
    return .new (.array (← intersectionOf (.ofList items)))

/-- Objects of all alternatives. -/
def objectPart (alternatives : Alternatives) : ResolutionM Part := do
  if alternatives.isEmpty then
    return .new (.map (← add (.new .any)))
  else
    match (← alternatives.mapM objectOf).eraseDups with
    | [only] => return .existing only
    | rs => return .new (← meetObjects rs)

/-- The parts of a type that admits what a description says. -/
def parts (a : Admitted) : ResolutionM (List Part) := do
  let arrays ← a.arrays.toList.mapM arrayPart
  let objects ← a.objects.toList.mapM objectPart
  return (primitiveParts a).map .new ++ arrays ++ objects

/-- The node of a part. -/
def partNode : Part → ResolutionM NodeId
  | .new kind => add (.new kind)
  | .existing r => return r

/-! ## Resolving -/

/-- Gives a node a new kind. -/
def replace (r : NodeId) (kind : Kind) (attributes : Attributes) (fixed : Bool := false) :
    ResolutionM Unit :=
  modify fun s => { s with graph := s.graph.modify r ({ · with kind, attributes, fixed }) }

/-- Replaces an intersection by a type that admits what all its members admit.  If
    `forced`, unresolved intersections among them count as admitting everything. -/
def resolve (forced : Bool) (r : NodeId) (members : List NodeId) : ResolutionM Unit := do
  let g := (← get).graph
  let attributes := g.metAttributes r members
  match Admitted.meetAll (members.map (g.admitted forced)) with
  | none => replace r .any attributes
  | some a =>
    match ← parts a with
    | [] => replace r .nothing attributes
    | [.new kind] => replace r kind attributes
    | [.existing x] =>
      let n := (← get).graph.node x
      replace r n.kind (Attributes.combine .intersection attributes n.attributes) n.fixed
    | ps => replace r (.union (.ofList (← ps.mapM partNode))) attributes

/-- Lets a node stand for its members, unless another does. -/
def register (s : Resolution) (e : NodeId × List NodeId) : Resolution :=
  let members := SortedSet.ofList e.2
  if s.intersections.contains members then s
  else { s with intersections := s.intersections.insert members e.1 }

/-- Resolves intersections: those that do not wait for others, or all of them if all do. -/
def round (s : Resolution) (intersections : List NodeId) : Resolution :=
  let g := s.graph
  let expanded := intersections.map fun r => (r, g.expandedMembers r)
  let s := expanded.foldl register s
  let ready := expanded.filter fun e => !e.2.any g.awaitsIntersection
  let (ready, forced) := if ready.isEmpty then (expanded, true) else (ready, false)
  ((ready.forM fun e => resolve forced e.1 e.2).run s).2

/-- Goes on until no intersection is reachable, for at most `n` rounds. -/
def rounds : Nat → Resolution → Resolution
  | 0, s => s
  | n + 1, s =>
    match s.graph.reachableIntersections with
    | [] => s
    | rs => rounds n (s.round rs)

/-- The most rounds of one application. -/
def roundLimit : Nat := 100

end Resolution

/-- Replaces intersections by the types that admit what all their members admit, and says
    whether none is left. -/
def Graph.resolveIntersections (g : Graph) : Graph × Bool :=
  let g := (Resolution.rounds Resolution.roundLimit (.ofGraph g)).graph.collect
  (g, (g.idsWhere Kind.isIntersection).isEmpty)

end SchemaTypes
