/-
  Resolving references across documents.

  A reference may lead into a document that was not crawled yet, whose identifiers can
  change where it leads; the document is crawled first and the reference is taken again
  (`attempt`).  Where that finds no document, the reference is tried against the address
  of the document it is written in (`resolveTwice`).
-/
import SchemaTypes.Lookup
import SchemaTypes.Scopes
import SchemaTypes.Store

namespace SchemaTypes

/-- The documents and identifiers known to a run. -/
structure Resolver where
  store : Store
  scopes : Scopes

/-- Steps that may fail; what they have done to the state stays. -/
abbrev ResolverM := ExceptT ConversionError (StateM Resolver)

namespace Resolver

/-- A resolver that has seen nothing. -/
def ofFetcher (fetcher : Fetcher) : Resolver := ⟨.ofFetcher fetcher, .empty⟩

/-- The document at an address, if it can be had. -/
def document? (a : Address) : ResolverM (Option Json) := fun r =>
  let (v, store) := r.store.get a
  (.ok v, { r with store })

/-- Crawls a document; false if that was done before. -/
def crawl (v : Json) (a : Address) : ResolverM Bool := fun r =>
  let (result, scopes) := r.scopes.addDocument v a
  (result, { r with scopes })

/-- Fetches and crawls a document; false if it cannot be had. -/
def addDocument (a : Address) : ResolverM Bool := do
  match ← document? a with
  | none => return false
  | some v =>
    let _ ← crawl v a
    return true

/-- Takes a reference with the document found from `fetchBase` and the path found from
    `lookupBase`.  Crawling a document for the first time costs one of the `retries`. -/
def attempt (fetchBase lookupBase : Location) (r : Reference) (retries : Nat) :
    ResolverM (Option Json × Location) := do
  let l := (← get).scopes.canonize fetchBase r
  match l.canonical.address with
  | none => throw (.noAddress l.canonical)
  | some a =>
    match ← document? a with
    | none => return (none, l)
    | some v =>
      if ← crawl v a then
        match retries with
        | 0 => throw (.crawledTwice a.text)
        | n + 1 => attempt fetchBase lookupBase r n
      else
        let found := (← get).scopes.canonize lookupBase r
        let target := { found with canonical := { found.canonical with address := some a } }
        let fragment ← target.canonical.lookup v
        return (some fragment, target)

/-- Tries the base, then the address of the document the base lies in. -/
def resolveTwice (base : Location) (r : Reference) : ResolverM (Option Json × Location) := do
  let first ← attempt base base r 1
  if first.1.isSome then return first
  let other := { base with reached := { base.reached with address := base.canonical.address } }
  attempt other base r 1

/-- The address to name where a document could not be had. -/
def blamed (r : Reference) (l : Location) : String :=
  match r.address, l.canonical.address with
  | some a, _ => a.text
  | none, some a => a.text
  | none, none => r.text

/-- The schema that a reference written at `base` denotes, and its location. -/
def resolve (base : Location) (r : Reference) : ResolverM (Json × Location) := do
  match ← resolveTwice base r with
  | (some v, l) => return (v, l)
  | (none, l) => throw (.unavailable (blamed r l) base.canonical)

/-- The schema that a reference outside of any schema denotes, and its location. -/
def resolveTopLevel (r : Reference) : ResolverM (Json × Location) := do
  match ← resolveTwice (.ofReference ⟨r.address, []⟩) { r with address := none } with
  | (some v, l) => return (v, l)
  | (none, l) => throw (.topLevelUnavailable (blamed r l))

end Resolver

end SchemaTypes
