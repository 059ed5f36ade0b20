/-
  The documents of a run.

  A store holds every document it was given or has fetched, each under its address, and
  never changes one (`add`, `get`).  What cannot be fetched is asked for again the next
  time.  The fetcher is told how often it was asked before, so that it may change its
  answers.
-/
import SchemaTypes.Error

namespace SchemaTypes

/-- Where documents come from: the answer to the `n`-th question, for an address. -/
def Fetcher := Nat → Address → Except LoadError Json

namespace Fetcher

/-- Serves nothing. -/
def nothing : Fetcher := fun _ a => .error (.notRegistered a.text)

/-- Serves given documents, the last one for an address, and leaves other addresses to
    `rest`. -/
def serving (documents : List (Address × Json)) (rest : Fetcher) : Fetcher := fun n a =>
  match documents.reverse.lookup a with
  | some v => .ok v
  | none => rest n a

end Fetcher

/-- The documents known so far. -/
structure Store where
  documents : List (Address × Json)
  /-- The addresses that the fetcher was asked for, the last one first. -/
  asked : List Address
  fetcher : Fetcher

namespace Store

/-- A store without documents. -/
def ofFetcher (fetcher : Fetcher) : Store := ⟨[], [], fetcher⟩

/-- The document known under an address. -/
def find? (s : Store) (a : Address) : Option Json := s.documents.lookup a

/-- Whether a document is known under an address. -/
def contains (s : Store) (a : Address) : Bool := (s.find? a).isSome

/-- How often the fetcher was asked. -/
def fetchCount (s : Store) : Nat := s.asked.length

/-- Puts a document under an address, unless one is known there. -/
def add (s : Store) (a : Address) (v : Json) : Bool × Store :=
  if s.contains a then (false, s) else (true, { s with documents := (a, v) :: s.documents })

/-- The document under an address, fetched if it is not known. -/
def get (s : Store) (a : Address) : Option Json × Store :=
  match s.find? a with
  | some v => (some v, s)
  | none =>
    let asked := a :: s.asked
    match s.fetcher s.fetchCount a with
    | .ok v => (some v, { s with asked, documents := (a, v) :: s.documents })
    | .error _ => (none, { s with asked })

end Store

end SchemaTypes
