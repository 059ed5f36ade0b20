/-
  The program on the files of the system.

  `CommandLine.run` takes the files that were read so far and says which documents it asked
  for; files among them that were not read yet are read, and it is run again, until there
  are none.
-/
import SchemaTypes.CommandLine

namespace SchemaTypes.CommandLine

/-- The files that were read so far. -/
abbrev KnownFiles := List (String × Except FileError String)

/-- The text of a file that was read; others count as missing. -/
def KnownFiles.read (known : KnownFiles) : ReadFile := fun path =>
  (known.lookup path).getD (.error .notFound)

/-- A bound for the number of values in the files. -/
def KnownFiles.size (known : KnownFiles) : Nat :=
  known.foldl (fun n f => match f.2 with | .ok text => n + text.length + 1 | .error _ => n) 0

/-- Why the system could not read or write a file. -/
def fileError : IO.Error → FileError
  | .noFileOrDirectory .. => .notFound
  | .inappropriateType _ 20 _ => .notDirectory
  | .inappropriateType .. => .isDirectory
  | .invalidArgument _ 36 _ => .nameTooLong
  | e => .other (toString e)

/-- Reads a file. -/
def readFile (path : String) : IO (String × Except FileError String) := do
  try
    return (path, .ok (← IO.FS.readFile path))
  catch e => return (path, .error (fileError e))

/-- Runs, reading the files that are asked for. -/
partial def runReading (directory : String) (a : Arguments) (known : KnownFiles) :
    IO (Except Failure String) := do
  let (result, asked) := run directory known.read known.size a
  let missing := (asked.filterMap Address.filePath?).eraseDups.filter fun path =>
    (known.lookup path).isNone
  if missing.isEmpty then return result
  runReading directory a ((← missing.mapM readFile) ++ known)

/-- Prints a failure. -/
def fail (e : Failure) : IO UInt32 := do
  IO.eprintln e.message
  return e.exitCode.toUInt32

/-- Prints or writes the output. -/
def deliver (a : Arguments) (text : String) : IO UInt32 := do
  match a.valueOf? .output with
  | none =>
    IO.println text
    return 0
  | some path =>
    try
      IO.FS.writeFile path text
      return 0
    catch e => fail (.outputUnwritable path (fileError e))

end SchemaTypes.CommandLine

open SchemaTypes SchemaTypes.CommandLine in
/-- The program. -/
def main (args : List String) : IO UInt32 := do
  match read? args with
  | none => fail .wrongArguments
  | some .help => IO.println helpText; return 0
  | some .version => IO.println versionText; return 0
  | some (.run a) =>
    let known ← (a.valueOf? .config).toList.mapM readFile
    match ← runReading (← IO.currentDir).toString a known with
    | .error e => fail e
    | .ok text => deliver a text
