/-
  Types that are the same.

  `mergeDuplicates` redirects every reference to a type to the first that is its equal.
  Classes, object types and intersections keep their identity.  Merging can make further
  types equal, so one application need not be the last.
-/
import SchemaTypes.Graph

namespace SchemaTypes.Graph

/-- Whether a kind of type has an identity of its own. -/
def hasIdentity : Kind → Bool
  | .record _ | .object _ _ | .intersection _ => true
  | _ => false

/-- Whether two nodes are the same type. -/
def duplicates (g : Graph) (r s : NodeId) : Bool :=
  (g.kind r).same (g.kind s) && (g.attributes r).same (g.attributes s) &&
    (g.node r).fixed == (g.node s).fixed

/-- The nodes that are the same type as one before them, each with the first such node;
    `kept` holds the nodes so far that are the same as none before them. -/
def merges (g : Graph) : List NodeId → List NodeId → List (NodeId × NodeId)
  | _, [] => []
  | kept, r :: rest =>
    match kept.find? (g.duplicates r) with
    | some s => (r, s) :: merges g kept rest
    | none => merges g (kept ++ [r]) rest

/-- Merges equal types, and says whether there were none. -/
def mergeDuplicates (g : Graph) : Graph × Bool :=
  let merged := g.merges [] (g.idsWhere fun k => !hasIdentity k)
  (g.forward (.ofList merged), merged.isEmpty)

end SchemaTypes.Graph
