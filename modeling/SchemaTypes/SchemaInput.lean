/-
  The schemas of a run.

  Sources are added one by one (`addSource`); the documents that they bring are kept under
  addresses of their own, made distinct by numbers where needed.  `addTypes` finds the
  references that the sources stand for, makes them top levels and converts them all.
-/
import SchemaTypes.Conversion
import SchemaTypes.Loading
import SchemaTypes.Source

namespace SchemaTypes

/-- Schemas that have been added, and where others come from. -/
structure SchemaInput where
  /-- Serves the documents that no source brings. -/
  fetcher : Fetcher
  /-- A bound for the number of values in all documents that the fetcher serves. -/
  served : Nat
  producers : List Producer
  /-- Documents that are crawled before anything else. -/
  additional : List Address
  /-- The documents that sources brought. -/
  documents : OrderedMap Address Json
  sources : List (SourceUri × Source)
  topLevels : OrderedMap String Reference
  /-- Whether a source was added that is a schema from the start. -/
  hasOwnSchemas : Bool
  /-- The addresses for whose documents the last conversion had to ask. -/
  asked : List Address

namespace SchemaInput

/-- No schemas, and documents from a fetcher. -/
def ofFetcher (fetcher : Fetcher) (served : Nat) : SchemaInput where
  fetcher
  served
  producers := Producer.standard
  additional := []
  documents := ∅
  sources := []
  topLevels := ∅
  hasOwnSchemas := false
  asked := []

/-- No schemas, and given documents. -/
def ofDocuments (documents : List (Address × Json)) : SchemaInput :=
  .ofFetcher (.serving documents .nothing) (documents.foldl (fun n d => n + d.2.size) 0)

/-! ## Sources -/

/-- The schema that a source brings. -/
def readDocument (name : String) (d : SourceDocument) : Except SourceError Json := do
  let v ←
    match d with
    | .value v => pure v
    | .text t => (documentOfText name t).mapError .load
  if v.isSchema then return v else throw (.load (.notASchema name v.typeName))

/-- The first free one of an address and its numbered variants.  One more number is tried
    than there are documents, so that not all of them can be taken. -/
def freeAddress (documents : OrderedMap Address Json) (a : Address) : Address :=
  let variants := (List.range (documents.size + 2)).map a.variant
  (variants.find? fun a => !documents.contains a).getD a

/-- Keeps a document for each of several URIs, at addresses that are still free. -/
def keep (v : Json) : List SourceUri → OrderedMap Address Json →
    List SourceUri × OrderedMap Address Json
  | [], documents => ([], documents)
  | u :: rest, documents =>
    let address := freeAddress documents u.address
    let (us, documents) := keep v rest (documents.insert address v)
    ({ u with address } :: us, documents)

/-- Enters a source under its URIs. -/
def enterSource (i : SchemaInput) (s : Source) (uris : List SourceUri) : SchemaInput :=
  { i with sources := i.sources ++ uris.map (·, s) }

/-- Adds a source.  One that brings no schema of its own needs URIs. -/
def addSource (i : SchemaInput) (s : Source) : Except SourceError Unit × SchemaInput :=
  let i := { i with hasOwnSchemas := i.hasOwnSchemas || !s.converted }
  match s.document with
  | none =>
    if s.uris.isNone then (.error (.noUris s.name), i)
    else (.ok (), i.enterSource s s.sourceUris)
  | some d =>
    match readDocument s.name d with
    | .error e => (.error e, i)
    | .ok v =>
      let (uris, documents) := keep v s.sourceUris i.documents
      (.ok (), { i with documents }.enterSource s uris)

/-- Makes a reference a top level. -/
def addTopLevel (i : SchemaInput) (name : String) (r : Reference) : SchemaInput :=
  { i with topLevels := i.topLevels.insert name r }

/-- The text that all sources have in common, if each is a text. -/
def singleText? (i : SchemaInput) : Option String :=
  match i.sources.map fun s => s.2.text? with
  | some first :: rest => if rest.all (· == some first) then some first else none
  | _ => none

/-! ## References -/

/-- The references of the sources, while they are gathered. -/
structure Gathering where
  resolver : Resolver
  topLevels : OrderedMap String Reference

/-- Steps of gathering. -/
abbrev GatheringM := ExceptT SourceError (StateM Gathering)

/-- A step of resolving. -/
def resolving {α : Type} (m : ResolverM α) : GatheringM α := fun s =>
  let (result, resolver) := m.run s.resolver
  (result.mapError .conversion, { s with resolver })

/-- Crawls a document that has to be there. -/
def crawlAdditional (a : Address) : GatheringM Unit := do
  match ← resolving (Resolver.document? a) with
  | none => throw (.additionalUnavailable a.text)
  | some v => discard <| resolving (Resolver.crawl v a)

/-- The reference of a URI, and whether the fields of its target are meant: the fragment
    ends with a slash then. -/
def referenceOf (u : SourceUri) : Reference × Bool :=
  let ofFields := u.fragment.endsWith "/"
  let fragment :=
    if ofFields then String.ofList (u.fragment.toList.take (u.fragment.length - 1))
    else u.fragment
  let r : Reference :=
    ⟨some u.address, if fragment.isEmpty then [.root] else Reference.parsePath fragment⟩
  (r, ofFields && !r.isRoot)

/-- The name of the schema at a URI: its title, else a name from the URI, else the name of
    the source. -/
def schemaName (u : SourceUri) (given : String) (v : Json) : Except SourceError String :=
  match ((v.field? "title").bind Json.string?).or u.name? with
  | some name => .ok name
  | none => if given.isEmpty then .error (.noName u.text) else .ok given

/-- The named references of a source.  The only source gives its own name. -/
def namedReferences (only : Bool) (u : SourceUri) (s : Source) :
    GatheringM (List (String × Reference)) := do
  let (r, ofFields) := referenceOf u
  let (v, _) ← resolving (Resolver.resolveTopLevel r)
  if ofFields then
    match v.object? with
    | some fields => return fields.map fun f => (f.1, r.push [f.1])
    | none => throw (.typesFromBoolean r)
  else
    let name ← schemaName u s.name v
    return [(if only then s.name else name, r)]

/-- Enters the references of the sources as top levels. -/
def gather (only : Bool) : List (SourceUri × Source) → GatheringM Unit
  | [] => return
  | (u, s) :: rest => do
    for (name, r) in ← namedReferences only u s do
      modify fun g => { g with topLevels := g.topLevels.insert name r }
    gather only rest

/-- Crawls the additional documents and gathers the references of the sources. -/
def gatherAll (i : SchemaInput) : GatheringM Unit := do
  i.additional.forM crawlAdditional
  gather (i.sources.length == 1) i.sources

/-! ## Types -/

/-- A bound for the number of values in all documents. -/
def size (i : SchemaInput) : Nat := i.documents.values.foldl (fun n v => n + v.size) i.served

/-- Converts all top levels. -/
def convertAll (i : SchemaInput) : ConversionM Unit :=
  Conversion.addTopLevels i.producers (Conversion.depthFor i.size i.topLevels.size)
    i.topLevels.entries

/-- Adds the types of all sources and top levels.  The references of the sources stay top
    levels. -/
def addTypes (i : SchemaInput) (b : Builder) : Except SourceError Builder × SchemaInput :=
  if i.sources.isEmpty then (.ok b, i)
  else
    let resolver := Resolver.ofFetcher (.serving i.documents.entries i.fetcher)
    let (gathered, g) := i.gatherAll.run ⟨resolver, i.topLevels⟩
    let i := { i with topLevels := g.topLevels }
    match gathered with
    | .error e => (.error e, { i with asked := g.resolver.store.asked })
    | .ok () =>
      let (converted, c) := i.convertAll.run ⟨g.resolver, b, ∅⟩
      let i := { i with asked := c.resolver.store.asked }
      match converted with
      | .ok () => (.ok c.builder, i)
      | .error e => (.error (.conversion e), i)

end SchemaInput

end SchemaTypes
