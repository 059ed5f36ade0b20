/-
  Intersections of a single member say nothing of their own: references to them are
  redirected to the member, which takes over their attributes.
-/
import SchemaTypes.Graph

namespace SchemaTypes.Graph

/-- The intersections of one member, other than themselves, with their members. -/
def indirections (g : Graph) : Redirection :=
  .ofList (g.ids.filterMap fun r =>
    match g.kind r with
    | .intersection ms =>
      match ms.toList with
      | [only] => if only = r then none else some (r, only)
      | _ => none
    | _ => none)

/-- Moves the attributes of a node along a redirection, if it leads elsewhere. -/
def moveAttributes (moved : Redirection) (g : Graph) (r : NodeId) : Graph :=
  if moved.follow r = r then g else g.addAttributes (moved.follow r) (g.attributes r)

/-- Redirects references to intersections of a single member to that member. -/
def removeIndirections (g : Graph) : Graph :=
  let moved := g.indirections
  (moved.keys.foldl (moveAttributes moved) g).forward moved

end SchemaTypes.Graph
