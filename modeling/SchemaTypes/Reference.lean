/-
  References into documents.

  A reference is the address of a document, which may be missing, and a path into it.
  Paths read from text have a root mark, if the text begins with a slash, and keys;
  the steps `type` and `object` stand only for parts of types that are being built.

  * `parse` reads a reference and `text` writes it;
  * `resolve` takes its address relative to another reference;
  * `name` is the best name for what it refers to.
-/
import SchemaTypes.Address

namespace SchemaTypes

/-- One step of a path. -/
inductive Step where
  | root
  /-- The key of an object or the index of an array, as text. -/
  | key (k : String)
  /-- A member of a type. -/
  | type (index : Nat)
  /-- The object member of a type. -/
  | object
  deriving DecidableEq

/-- A reference to a part of a document. -/
structure Reference where
  address : Option Address
  path : List Step
  deriving DecidableEq

namespace Step

/-- The text of a key. -/
def key? : Step → Option String
  | key k => some k
  | _ => none

/-- The step as written. -/
def text : Step → String
  | root => ""
  | key k => k
  | type i => "type/" ++ toString i
  | object => "object"

end Step

namespace Reference

/-- The name where no better one is found. -/
def placeholderName : String := "Something"

/-- The reference as written. -/
def text (r : Reference) : String :=
  (match r.address with | some a => a.text | none => "") ++ "#" ++
    "/".intercalate (r.path.map Step.text)

/-- Reads a path: a leading slash is the root, each segment a key. -/
def parsePath (s : String) : List Step :=
  let keys (cs : List Char) : List Step :=
    if cs.isEmpty then []
    else (cs.splitOn '/').map fun p => .key (Address.decodeSegment (String.ofList p))
  match s.toList with
  | '/' :: cs => .root :: keys cs
  | cs => keys cs

/-- Reads a reference; an empty fragment is the root. -/
def parse (s : String) : Reference :=
  let (address, fragment) := Address.splitFragment s
  let fragment := fragment.getD ""
  ⟨if address.isEmpty then none else some (Address.parse address),
    parsePath (if fragment.isEmpty then "/" else fragment)⟩

/-- Whether the reference is to the root of a document. -/
def isRoot (r : Reference) : Bool := r.path == [.root]

/-- The reference with steps appended to its path. -/
def append (r : Reference) (steps : List Step) : Reference := { r with path := r.path ++ steps }

/-- The reference with keys appended to its path. -/
def push (r : Reference) (keys : List String) : Reference := r.append (keys.map .key)

/-- Takes the address relative to that of a base; the path stays. -/
def resolve (r : Reference) (base : Option Reference) : Reference :=
  let address := match r.address, base.bind (·.address) with
    | none, some b => some b
    | some a, some b => some (a.resolve b)
    | a, none => a
  { r with address }

/-! ## Names -/

/-- Whether a key can serve as a name: it is not empty and not all digits. -/
def isNameKey (k : String) : Bool :=
  !k.isEmpty && !(k.toList.all fun c => decide ('0' ≤ c ∧ c ≤ '9'))

/-- The first name among steps that are given last one first; the root ends the
    search. -/
def nameInPath? : List Step → Option String
  | .root :: _ => none
  | .key k :: rest => if isNameKey k then some k else nameInPath? rest
  | _ :: rest => nameInPath? rest
  | [] => none

/-- A file name without its last extension; a dot that comes first begins none. -/
def stem (fileName : String) : String :=
  match fileName.toList.reverse.span (· ≠ '.') with
  | (_, _ :: before) => if before.isEmpty then fileName else String.ofList before.reverse
  | (_, []) => fileName

/-- The nearest key from the end that can serve as a name, else the file name. -/
def name (r : Reference) : String :=
  match nameInPath? r.path.reverse with
  | some k => k
  | none =>
    let s := stem ((r.address.map Address.fileName).getD "")
    if s.isEmpty then placeholderName else s

/-- The name of a definition: the key behind `definitions` or `$defs` at the end. -/
def definitionName? (r : Reference) : Option String :=
  match r.path.reverse with
  | last :: group :: _ =>
    if group = .key "definitions" ∨ group = .key "$defs" then last.key? else none
  | _ => none

end Reference

end SchemaTypes
