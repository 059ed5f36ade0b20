/-
  Graphs as JSON documents.

  A type is an object of its kind, the fields of the kind, and what else is known about
  it; types refer to each other by place.  Properties and top levels are objects in the
  order of the graph.
-/
import SchemaTypes.Attribute.Document
import SchemaTypes.Graph

namespace SchemaTypes

/-- A reference to a node. -/
def Json.ofNode (r : NodeId) : Json := .number (.integer r)

/-- Properties as a document. -/
def Properties.toJson (ps : Properties) : Json :=
  .object (ps.entries.map fun (name, p) =>
    (name, .object [("type", .ofNode p.type), ("optional", .bool p.optional)]))

/-- The fields of a kind besides its name. -/
def Kind.fields : Kind → Json.Fields
  | string (some cases) | enumeration cases => [("cases", .ofSet cases)]
  | formatted f => [("format", .string f.name)]
  | array items => [("items", .ofNode items)]
  | object ps additional =>
    ("properties", ps.toJson) :: additional.toList.map fun r => ("additional", .ofNode r)
  | record ps => [("properties", ps.toJson)]
  | map values => [("values", .ofNode values)]
  | union ms | intersection ms => [("members", .array (ms.toList.map .ofNode))]
  | _ => []

/-- A node as a document. -/
def Node.toJson (n : Node) : Json :=
  .object (("kind", .string n.kind.name) :: n.kind.fields ++
    (if n.attributes.isEmpty then [] else [("attributes", n.attributes.toJson)]) ++
    (if n.fixed then [("fixed", .bool true)] else []) ++
    n.name.toList.map fun name => ("name", .string name))

/-- A graph as a document. -/
def Graph.toJson (g : Graph) : Json :=
  .object [("types", .array (g.nodes.toList.map Node.toJson)),
    ("top_levels", .object (g.topLevels.entries.map fun (name, r) => (name, .ofNode r)))]

end SchemaTypes
