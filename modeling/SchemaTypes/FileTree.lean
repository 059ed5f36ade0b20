/-
  Files in directories.

  A place in a tree of files is the list of the names that lead to it from the root.
  `FileTree.find` follows a path as a file system does: each name but the last must be
  that of a directory, `..` leads to the parent, and neither a name nor the whole path may
  be too long.  `FileTree.read` and `FileTree.write` tell what reading and writing come to.
-/
import SchemaTypes.Address

namespace SchemaTypes

/-- Why a file could not be read or written. -/
inductive FileError where
  | notFound
  | notDirectory
  | isDirectory
  | nameTooLong
  | other (reason : String)
  deriving DecidableEq

/-- The error as the system tells it. -/
def FileError.message : FileError → String
  | notFound => "No such file or directory (os error 2)"
  | notDirectory => "Not a directory (os error 20)"
  | isDirectory => "Is a directory (os error 21)"
  | nameTooLong => "File name too long (os error 36)"
  | other reason => reason

/-- The names that lead from the root to a file or a directory. -/
abbrev Place := List String

/-- The texts of files by place, and the directories that are there besides those with
    files in them. -/
structure FileTree where
  files : List (Place × String)
  directories : List Place

/-- What stands at a place. -/
inductive FileEntry where
  | file (place : Place) (text : String)
  | directory (place : Place)
  /-- Nothing, but a file can be made there. -/
  | free (place : Place)

namespace FileTree

/-- Whether a place is a directory: the root, a given one, or one above those or above a
    file. -/
def isDirectory (t : FileTree) (p : Place) : Bool :=
  p.isEmpty || (t.files.any fun f => p.isPrefixOf f.1 && p != f.1) ||
    t.directories.any p.isPrefixOf

/-- How many bytes a name may have. -/
def nameLimit : Nat := 255

/-- How many bytes a path may have. -/
def pathLimit : Nat := 4095

/-- Follows the segments of a path from an entry. -/
def follow (t : FileTree) : FileEntry → List String → Except FileError FileEntry
  | e, [] => .ok e
  | .file _ _, _ :: _ => .error .notDirectory
  | .free _, _ :: _ => .error .notFound
  | .directory p, s :: rest =>
    if s.isEmpty || s == "." then t.follow (.directory p) rest
    else if s == ".." then t.follow (.directory p.dropLast) rest
    else if nameLimit < s.utf8ByteSize then .error .nameTooLong
    else
      let q := p ++ [s]
      match t.files.lookup q with
      | some text => t.follow (.file q text) rest
      | none => t.follow (if t.isDirectory q then .directory q else .free q) rest

/-- The segments of a path, which begins at a directory if it is not rooted. -/
def segments (directory path : String) : Except FileError (List String) :=
  if path.isEmpty then .error .notFound
  else if pathLimit < path.utf8ByteSize then .error .nameTooLong
  else .ok (Address.splitSegments (Address.pathFrom directory path))

/-- The text of the file that a path leads to. -/
def read (t : FileTree) (directory path : String) : Except FileError String := do
  match ← t.follow (.directory []) (← segments directory path) with
  | .file _ text => return text
  | .directory _ => throw .isDirectory
  | .free _ => throw .notFound

/-- The tree with a text written to the file that a path leads to.  A path that ends with
    a slash is that of a directory, if its parent is there. -/
def write (t : FileTree) (directory path text : String) : Except FileError FileTree := do
  let names ← segments directory path
  if path.endsWith "/" then
    let parent := ((names.reverse.dropWhile String.isEmpty).drop 1).reverse
    match ← t.follow (.directory []) parent with
    | .directory _ => throw .isDirectory
    | .file _ _ => throw .notDirectory
    | .free _ => throw .notFound
  else
    match ← t.follow (.directory []) names with
    | .file p _ | .free p => return { t with files := (p, text) :: t.files.filter (·.1 != p) }
    | .directory _ => throw .isDirectory

end FileTree

end SchemaTypes
