/-
  Addresses of documents.

  An address is an absolute URL in normal form or a relative reference kept as it was
  written; it never has a fragment.  Addresses are what documents are identified by.

  * `parse` reads an address, `resolve` takes it relative to another one;
  * `removeDots` resolves the dot segments of a relative path with one stack;
  * `fileName` is the last segment, decoded; `filePath?` and `ofPath` relate addresses
    and files.
-/
import SchemaTypes.Url.Reader

namespace SchemaTypes

open Text

/-- The address of a document. -/
inductive Address where
  | absolute (url : Url)
  | relative (path : String)
  deriving DecidableEq

namespace Address

/-- The address as written. -/
def text : Address → String
  | absolute url => url.text
  | relative path => path

/-- Whether the address is an absolute URL. -/
def isAbsolute : Address → Bool
  | absolute _ => true
  | relative _ => false

/-- Whether there is any address. -/
def isPresent : Address → Bool
  | relative "" => false
  | _ => true

/-- Splits a text at the first `#`; none follows if there is no `#`. -/
def splitFragment (s : String) : String × Option String :=
  match s.toList.span (· ≠ '#') with
  | (before, _ :: after) => (String.ofList before, some (String.ofList after))
  | (_, []) => (s, none)

/-- Reads an address, dropping any fragment: what is no absolute URL is relative. -/
def parse (s : String) : Address :=
  let address := (splitFragment s).1
  match Url.parse? address with
  | some url => absolute url
  | none => relative address

/-! ## Dot segments -/

/-- One more segment on the stack of segments, last one first.  `..` drops the last
    segment; where there is none to drop it stays, unless the path is rooted. -/
def pushSegment (rooted : Bool) (stack : List String) (segment : String) : List String :=
  if segment = "." then stack
  else if segment = ".." then
    match stack with
    | top :: below =>
      if top ≠ ".." then below else if rooted then stack else segment :: stack
    | [] => if rooted then [] else [segment]
  else segment :: stack

/-- Joins segments by slashes. -/
def joinSegments (segments : List String) : String := "/".intercalate segments

/-- The segments between slashes. -/
def splitSegments (path : String) : List String :=
  (path.toList.splitOn '/').map String.ofList

/-- Whether a path begins with a slash. -/
def isRooted (path : String) : Bool := path.toList.head? == some '/'

/-- Resolves the dot segments of a path; a rooted path stays rooted. -/
def removeDots (path : String) : String :=
  let rooted := isRooted path
  let joined := joinSegments ((splitSegments path).foldl (pushSegment rooted) []).reverse
  if rooted && !isRooted joined then "/" ++ joined else joined

/-! ## Resolution -/

/-- The part of a path up to its last slash. -/
def directory (path : String) : String :=
  String.ofList (path.toList.reverse.dropWhile (· ≠ '/')).reverse

/-- Takes an address relative to a base. -/
def resolve (address base : Address) : Address :=
  match address, base with
  | absolute _, _ => address
  | relative r, absolute b =>
    match Url.join? b r with
    | some url => absolute url
    | none => address
  | relative r, relative b =>
    if r.isEmpty then base
    else if isRooted r then relative (removeDots r)
    else relative (removeDots (directory b ++ r))

/-- The address with `-n` appended to its path. -/
def withSuffix (address : Address) (n : Nat) : Address :=
  match address with
  | absolute url => absolute (url.withPath (url.path.text ++ "-" ++ toString n))
  | relative path => relative (path ++ "-" ++ toString n)

/-- The address itself, and then the address with one number after the other. -/
def variant (address : Address) : Nat → Address
  | 0 => address
  | n + 1 => address.withSuffix (n + 1)

/-! ## Segments -/

/-- Undoes the escapes of pointers: `~1` is a slash and `~0` a tilde. -/
def unescape : List Char → List Char
  | '~' :: '1' :: cs => '/' :: unescape cs
  | '~' :: '0' :: cs => '~' :: unescape cs
  | c :: cs => c :: unescape cs
  | [] => []

/-- Decodes a segment: percent escapes first, then those of pointers. -/
def decodeSegment (s : String) : String :=
  String.ofList (unescape (Percent.decode s.toList))

/-- The last segment of the path, decoded. -/
def fileName : Address → String
  | absolute url => decodeSegment (url.path.last?.getD "")
  | relative path => decodeSegment ((splitSegments path).getLast?.getD "")

/-! ## Files -/

/-- Whether a source is the address of a web page. -/
def isWeb (source : String) : Bool :=
  source.startsWith "http://" || source.startsWith "https://"

/-- Whether a path ends with a letter and a colon or a bar. -/
def endsWithDrive (path : List Char) : Bool :=
  match path.reverse with
  | a :: b :: _ :: _ => Url.isLetter b && (a = ':' || a = '|')
  | _ => false

/-- The file an address denotes; relative addresses are paths. -/
def filePath? : Address → Option String
  | relative path => some path
  | absolute url =>
    match url.path with
    | .segments parts =>
      if url.scheme == "file" && (url.host?.isNone || url.host? == some "localhost")
          && !parts.isEmpty then
        let path := parts.flatMap fun p => '/' :: Percent.decode p.toList
        some (String.ofList (if endsWithDrive path then path ++ ['/'] else path))
      else none
    | .whole _ => none

/-- The URL of a file with an absolute path: empty and single-dot segments are left
    out. -/
def ofAbsolutePath (path : String) : Address :=
  let segments := (splitSegments path).filter fun s => !(s.isEmpty || s == ".")
  let parts := segments.map fun s => Url.escape Url.escapedInFileName s.toList
  absolute ⟨"file", some .empty, .segments (if parts.isEmpty then [""] else parts), none⟩

/-- The path taken from a working directory, if it is not rooted. -/
def pathFrom (directory path : String) : String :=
  if isRooted path then path
  else if directory.endsWith "/" then directory ++ path
  else directory ++ "/" ++ path

/-- The address of a source, which is a web address or a path taken from a working
    directory. -/
def ofSource (directory source : String) : Address :=
  if isWeb source then parse source
  else
    let path := pathFrom directory source
    if isRooted path then ofAbsolutePath path else relative source

end Address

end SchemaTypes
