/-
  Identifiers and the places they stand for.

  A document is crawled once: every object that has an `$id`, or lies below one that
  has, is entered under the reference that the identifiers give it, with the location it
  has in the document (`entries`).  `canonize` finds the location that a reference
  denotes where it is written.
-/
import SchemaTypes.Location

namespace SchemaTypes

/-- What crawling has found. -/
structure Scopes where
  /-- Locations by the reference they are reached by; the first entry counts. -/
  places : List (Reference × Location)
  /-- The addresses of the documents that were crawled to the end. -/
  crawled : List Address

namespace Scopes

/-- Nothing crawled. -/
def empty : Scopes := ⟨[], []⟩

/-- The entries a crawl has made, in order, and the error that stopped it, if any. -/
structure Crawl where
  entries : List (Reference × Location)
  error : Option ConversionError

/-- Goes on with `next` unless the crawl was stopped. -/
def Crawl.andThen (c next : Crawl) : Crawl :=
  if c.error.isSome then c else ⟨c.entries ++ next.entries, next.error⟩

mutual

/-- The entries of a value at a location: an object is entered with its location before
    its own `$id`, then its fields are crawled at the location after it. -/
def entries (l : Location) : Json → Crawl
  | .array items => entriesOfItems l 0 items
  | .object fields =>
    match l.withId (fields.lookup "$id") with
    | .error e => ⟨[], some e⟩
    | .ok inner =>
      Crawl.andThen ⟨if inner.hasId then [(inner.reached, l)] else [], none⟩
        (entriesOfFields inner fields)
  | _ => ⟨[], none⟩

/-- The entries of the items of an array, the first of which has index `i`. -/
def entriesOfItems (l : Location) (i : Nat) : List Json → Crawl
  | [] => ⟨[], none⟩
  | v :: rest => (entries (l.push [toString i]) v).andThen (entriesOfItems l (i + 1) rest)

/-- The entries of the fields of an object. -/
def entriesOfFields (l : Location) : List (String × Json) → Crawl
  | [] => ⟨[], none⟩
  | (k, v) :: rest => (entries (l.push [k]) v).andThen (entriesOfFields l rest)

end

/-- The location of the root of a document, before its `$id`. -/
def rootLocation (a : Address) : Location := ⟨⟨some a, [.root]⟩, ⟨none, [.root]⟩, false⟩

/-- Whether a document was crawled to the end. -/
def isCrawled (s : Scopes) (a : Address) : Bool := s.crawled.contains a

/-- Crawls a document, unless that was done before.  After an error the entries made so
    far stay, but the document does not count as crawled. -/
def addDocument (s : Scopes) (v : Json) (a : Address) : Except ConversionError Bool × Scopes :=
  if s.isCrawled a then (.ok false, s)
  else
    let c := entries (rootLocation a) v
    let places := c.entries.reverse ++ s.places
    match c.error with
    | some e => (.error e, { s with places })
    | none => (.ok true, ⟨places, a :: s.crawled⟩)

/-- The location that a reference written at `base` denotes: the one entered for it, or
    else the place it names itself. -/
def canonize (s : Scopes) (base : Location) (r : Reference) : Location :=
  let reached := r.resolve (some base.reached)
  match s.places.lookup reached with
  | some l => l
  | none =>
    ⟨if reached.address.isSome then reached else { reached with address := base.canonical.address },
      { reached with address := none }, false⟩

end Scopes

end SchemaTypes
