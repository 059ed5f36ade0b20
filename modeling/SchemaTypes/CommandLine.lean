/-
  The program: schemas in files to a graph of types.

  `run` is the work of the program up to its output, given a way to read files.  `runOn` is
  the whole program on a tree of files: what it prints, its exit code, and the tree
  afterwards.
-/
import SchemaTypes.CommandLine.Arguments
import SchemaTypes.Graph.Document
import SchemaTypes.Run

namespace SchemaTypes.CommandLine

/-- The name of the program. -/
def programName : String := "schema-typegraph"

/-- How the program is called. -/
def usage : String := "Usage: " ++ programName ++ " [OPTIONS] <SOURCES>..."

/-- Why the program ends without a result. -/
inductive Failure where
  | wrongArguments
  | configUnreadable (path : String) (e : FileError)
  | configInvalid (path : String)
  | run (e : RunError)
  | outputUnwritable (path : String) (e : FileError)

namespace Failure

/-- The text of a failure. -/
def message : Failure → String
  | wrongArguments => usage
  | configUnreadable path e => "Error reading " ++ path ++ ": " ++ e.message
  | configInvalid path => "Error: invalid config " ++ path
  | run e => "Error: " ++ e.message
  | outputUnwritable path e => "Error writing to " ++ path ++ ": " ++ e.message

/-- The exit code of a failure. -/
def exitCode : Failure → Nat
  | configUnreadable _ _ | outputUnwritable _ _ => 3
  | wrongArguments | configInvalid _ => 2
  | run e => e.exitCode

end Failure

/-! ## Sources -/

/-- A source without its fragment, and the fragment. -/
def splitSource (source : String) : String × String :=
  let (address, fragment) := Address.splitFragment source
  (address, fragment.getD "")

/-- The URI of a source: the address of its file, and its fragment. -/
def sourceUri (directory source : String) : String :=
  let (address, fragment) := Address.splitFragment source
  let text := (Address.ofSource directory address).text
  match fragment with
  | some fragment => text ++ "#" ++ fragment
  | none => text

/-- The last part between separators that is not empty. -/
def lastPart? (isSeparator : Char → Bool) (s : String) : Option String :=
  ((s.toList.splitOnP isSeparator).reverse.find? (!·.isEmpty)).map String.ofList

/-- The part of a name before its first dot, if there is any. -/
def beforeDot (name : String) : String :=
  let stem := name.toList.takeWhile (· ≠ '.')
  if stem.isEmpty then name else String.ofList stem

/-- The name of a source: from the last part of its fragment, or else of its path. -/
def sourceName (source : String) : String :=
  let (address, fragment) := splitSource source
  let part := (lastPart? (· = '/') fragment).or
    (lastPart? (fun c => c = '/' || c = '\\') address)
  beforeDot (part.getD "TopLevel")

/-! ## Running -/

/-- The options of a run: from a file, where one is given, and the flags. -/
def readOptions (read : ReadFile) (a : Arguments) : Except Failure Options :=
  match a.valueOf? .config with
  | none => .ok (a.options .default)
  | some path =>
    match read path with
    | .error e => .error (.configUnreadable path e)
    | .ok text =>
      match (Json.parseSelected? Options.selection text).bind Options.read? with
      | some o => .ok (a.options o)
      | none => .error (.configInvalid path)

/-- The schemas that are asked for, before any is added. -/
def newSchemas (directory : String) (read : ReadFile) (size : Nat) (a : Arguments) :
    SchemaInput :=
  { SchemaInput.ofFetcher (.ofFiles read) size with
    additional := (a.valuesOf .additionalSchema).map (Address.ofSource directory) }

/-- Adds the sources. -/
def addSources (directory : String) (a : Arguments) :
    List String → SchemaInput → Except SourceError SchemaInput
  | [], i => .ok i
  | source :: rest, i =>
    let name := (a.valueOf? .topLevel).getD (sourceName source)
    match i.addSource ⟨name, some [sourceUri directory source], none, false⟩ with
    | (.ok (), i) => addSources directory a rest i
    | (.error e, _) => .error e

/-- A graph as it is put out. -/
def render (a : Arguments) (g : Graph) : String :=
  if Flag.pretty ∈ a.flags then g.toJson.pretty 2 else g.toJson.compact

/-- The output of a run, and the addresses for whose documents it had to ask.  `size` is a
    bound for the number of values in all files. -/
def run (directory : String) (read : ReadFile) (size : Nat) (a : Arguments) :
    Except Failure String × List Address :=
  match readOptions read a with
  | .error e => (.error e, [])
  | .ok o =>
    match addSources directory a a.sources (newSchemas directory read size a) with
    | .error e => (.error (.run (.source e)), [])
    | .ok i =>
      let (result, is) := Inputs.makeGraph [.schema i] o
      ((result.mapError .run).map (render a), (is.schemas?.map (·.asked)).getD [])

/-! ## The whole program -/

/-- What `--version` prints. -/
def versionText : String := programName ++ " 0.1.0"

/-- What `--help` prints. -/
def helpText : String :=
  "Resolve JSON Schema documents into a normalized type graph\n\n" ++ usage ++ "\n\n" ++
  "Sources are file paths or URLs, optionally with a #/fragment. A fragment ending in /\n" ++
  "makes every property of its target a top level.\n\nOptions:\n" ++
  "      --top-level <NAME>            Name of the type when there is a single source\n" ++
  "      --additional-schema <SOURCE>  Document crawled for $id before anything else\n" ++
  "      --http-header <HEADER>        Header for every request, as Name: value\n" ++
  "      --config <CONFIG>             JSON file with run options\n" ++
  "      --no-maps                     Do not turn classes with uniform properties into maps\n" ++
  "      --no-enums                    Do not infer enums from string literals\n" ++
  "      --no-combine-classes          Do not merge similar classes\n" ++
  "      --no-uuids                    Treat uuids as plain strings\n" ++
  "      --no-date-times               Treat dates and times as plain strings\n" ++
  "      --no-integer-strings          Treat integers in strings as plain strings\n" ++
  "      --no-boolean-strings          Treat booleans in strings as plain strings\n" ++
  "      --alphabetize                 Order class properties alphabetically\n" ++
  "      --all-optional                Make every class property optional\n" ++
  "      --output <OUTPUT>             Output file, standard output if not given\n" ++
  "      --pretty                      Indent the output\n" ++
  "  -v, --verbose                     Accepted and ignored\n" ++
  "  -h, --help                        Print help\n" ++
  "  -V, --version                     Print version"

/-- A bound for the number of values in the files of a tree: a value takes a character. -/
def treeSize (t : FileTree) : Nat := t.files.foldl (fun n f => n + f.2.length + 1) 0

/-- The program on a tree of files, from a working directory: what it prints, and the tree
    afterwards. -/
def runOn (t : FileTree) (directory : String) (args : List String) :
    Except Failure String × FileTree :=
  match read? args with
  | none => (.error .wrongArguments, t)
  | some .help => (.ok (helpText ++ "\n"), t)
  | some .version => (.ok (versionText ++ "\n"), t)
  | some (.run a) =>
    match (run directory (t.read directory) (treeSize t) a).1 with
    | .error e => (.error e, t)
    | .ok text =>
      match a.valueOf? .output with
      | none => (.ok (text ++ "\n"), t)
      | some path =>
        match t.write directory path text with
        | .ok t => (.ok "", t)
        | .error e => (.error (.outputUnwritable path e), t)

end SchemaTypes.CommandLine
