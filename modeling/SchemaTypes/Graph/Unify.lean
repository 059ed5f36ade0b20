/-
  One type for several.

  * `unionOf` gives a node for a union of nodes;
  * `unifyObjects` gives an object type that admits what any of several admits.
-/
import SchemaTypes.Graph

namespace SchemaTypes

/-- An object type seen as its properties and the type of all others. -/
structure ObjectView where
  properties : Properties
  additional : Option NodeId
  deriving DecidableEq

/-- An object-like kind as properties and the type of all others. -/
def Kind.objectView? : Kind → Option ObjectView
  | object ps additional => some ⟨ps, additional⟩
  | record ps => some ⟨ps, none⟩
  | map values => some ⟨∅, some values⟩
  | _ => none

namespace ObjectView

/-- The names of the properties of several views, in order of appearance. -/
def names (views : List ObjectView) : List String :=
  (views.flatMap fun v => v.properties.keys).eraseDups

/-- The types that the values of a property may have: its own where it is named, the type
    of the additional properties elsewhere. -/
def typesOf (views : List ObjectView) (name : String) : SortedSet NodeId :=
  .ofList (views.flatMap fun v =>
    match v.properties.get? name with
    | some p => [p.type]
    | none => v.additional.toList)

/-- Whether a view requires a property. -/
def requires (v : ObjectView) (name : String) : Bool :=
  match v.properties.get? name with
  | some p => !p.optional
  | none => false

end ObjectView

namespace Graph

/-- A node for the union of nodes: the only one of them, or a new node. -/
def unionOf (g : Graph) (members : SortedSet NodeId) : NodeId × Graph :=
  match members.toList with
  | [] => (g.size, g.push (.new .nothing))
  | [only] => (only, g)
  | _ => (g.size, g.push (.new (.union members)))

/-- The node for a union is a new one without values, the only member, or a new union. -/
theorem unionOf_cases {P : NodeId → Graph → Prop} {g : Graph} {members : SortedSet NodeId}
    (hnone : members.toList = [] → P g.size (g.push (.new .nothing)))
    (honly : ∀ m ∈ members, members.toList = [m] → P m g)
    (hunion : P g.size (g.push (.new (.union members)))) :
    P (g.unionOf members).1 (g.unionOf members).2 := by
  unfold unionOf
  split
  · next hnil => exact hnone hnil
  · next only he =>
    refine honly only ?_ he
    rw [← SortedSet.mem_toList, he]
    exact List.mem_singleton_self only
  · exact hunion

/-- Adds the united property of each name to the properties. -/
def uniteProperties (views : List ObjectView) : List String → Properties → Graph →
    Properties × Graph
  | [], ps, g => (ps, g)
  | name :: rest, ps, g =>
    let (type, g) := g.unionOf (ObjectView.typesOf views name)
    let optional := views.any fun v => !v.requires name
    uniteProperties views rest (ps.insert name ⟨type, optional⟩) g

/-- The types of the values of maps and classes. -/
def valueTypes (kinds : List Kind) : SortedSet NodeId :=
  .ofList (kinds.flatMap fun
    | .map values => [values]
    | .record ps => ps.types
    | _ => [])

/-- A type that admits what any of the object types `rs` admits.  Maps win over classes,
    and objects with both kinds of properties over either.  A property that is missing
    somewhere becomes optional and also admits what is allowed there instead. -/
def unifyObjects (g : Graph) (rs : List NodeId) : Node × Graph :=
  let kinds := rs.map g.kind
  let attributes := g.joinedAttributes rs
  let hasObject := kinds.any fun k => match k with | .object _ _ => true | _ => false
  let hasMap := kinds.any fun k => match k with | .map _ => true | _ => false
  if hasMap && !hasObject then
    let (values, g) := g.unionOf (valueTypes kinds)
    (.new (.map values) attributes, g)
  else
    let views := kinds.filterMap Kind.objectView?
    let fixed := rs.all fun r => (g.node r).fixed
    let (ps, g) := uniteProperties views (ObjectView.names views) ∅ g
    if hasObject then
      let additional := SortedSet.ofList (views.filterMap (·.additional))
      if additional.isEmpty then ({ Node.new (.object ps none) attributes with fixed }, g)
      else
        let (a, g) := g.unionOf additional
        ({ Node.new (.object ps (some a)) attributes with fixed }, g)
    else ({ Node.new (.record ps) attributes with fixed }, g)

end Graph

end SchemaTypes
