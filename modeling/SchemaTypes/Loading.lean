/-
  Documents from texts and files.

  `Fetcher.ofFiles` serves the documents in files.  Addresses that denote no files, web
  addresses among them, are not served.
-/
import SchemaTypes.FileTree
import SchemaTypes.Json.Reader
import SchemaTypes.Store

namespace SchemaTypes

/-- Reads a file by its path. -/
abbrev ReadFile := String → Except FileError String

/-- The document in a text, which is from an address. -/
def documentOfText (address text : String) : Except LoadError Json :=
  match Json.parse? text with
  | some v => .ok v
  | none => .error (.invalidJson address)

/-- The document in a file; a path that leads nowhere, for whatever reason, counts as one
    of a missing file. -/
def documentOfFile (read : ReadFile) (path : String) : Except LoadError Json :=
  match read path with
  | .ok text => documentOfText path text
  | .error .notFound | .error .notDirectory | .error .nameTooLong => .error (.fileNotFound path)
  | .error e => .error (.unreadable path e.message)

/-- Serves the documents in files. -/
def Fetcher.ofFiles (read : ReadFile) : Fetcher := fun n a =>
  match a.filePath? with
  | some path => documentOfFile read path
  | none => Fetcher.nothing n a

end SchemaTypes
