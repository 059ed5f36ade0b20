/-
  Sources of schemas.

  A source has a name and either a document of its own, or URIs of documents elsewhere.
  A URI is the address of a document and a fragment; both can give a name for the type
  that they lead to.
-/
import SchemaTypes.Address
import SchemaTypes.Json
import SchemaTypes.Text.Lowercase

namespace SchemaTypes

/-- The URI of a source. -/
structure SourceUri where
  address : Address
  fragment : String
  deriving DecidableEq

/-- A document given with a source. -/
inductive SourceDocument where
  | text (s : String)
  | value (v : Json)

/-- A source of schemas. -/
structure Source where
  name : String
  /-- Without URIs the name serves as the only one. -/
  uris : Option (List String)
  document : Option SourceDocument
  /-- Whether the schema was made from an input of another kind. -/
  converted : Bool

namespace SourceUri

/-- Reads a URI. -/
def parse (s : String) : SourceUri :=
  let (address, fragment) := Address.splitFragment s
  ⟨.parse address, fragment.getD ""⟩

/-- The URI as written. -/
def text (u : SourceUri) : String :=
  if u.fragment.isEmpty then u.address.text else u.address.text ++ "#" ++ u.fragment

/-- The endings that are left out of names. -/
def droppedEndings : List String := [".json", ".schema"]

/-- A name without the first of the endings that it has, in letters of either case. -/
def dropEnding (name : String) : String :=
  let lower := (Text.lowercase name).toList
  match droppedEndings.find? fun e => e.toList.isSuffixOf lower && e.length < name.length with
  | some e => String.ofList (name.toList.take (name.length - e.length))
  | none => name

/-- The last part of a fragment, or the one before it if that is empty. -/
def lastPart? (fragment : String) : Option String :=
  match (Address.splitSegments fragment).reverse with
  | last :: rest =>
    if !last.isEmpty then some last
    else
      match rest with
      | part :: _ => if part.isEmpty then none else some part
      | [] => none
  | [] => none

/-- A name for what the URI leads to: from the fragment, else from the file. -/
def name? (u : SourceUri) : Option String :=
  match lastPart? u.fragment with
  | some part => some (dropEnding part)
  | none => if u.address.fileName.isEmpty then none else some (dropEnding u.address.fileName)

end SourceUri

namespace Source

/-- The URIs of a source; the name stands in for a missing address. -/
def sourceUris (s : Source) : List SourceUri :=
  match s.uris with
  | none => [.parse s.name]
  | some uris => uris.map fun uri =>
    let u := SourceUri.parse uri
    if u.address.isPresent then u else { u with address := .parse s.name }

/-- The text of the document, if it was given as one. -/
def text? (s : Source) : Option String :=
  match s.document with
  | some (.text t) => some t
  | _ => none

end Source

end SchemaTypes
