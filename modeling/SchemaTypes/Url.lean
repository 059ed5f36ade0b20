/-
  Absolute addresses: URLs in normal form.

  A URL has a scheme, perhaps an authority, a path and perhaps a query; fragments are
  kept apart from addresses throughout the library.  The parts are stored escaped, as
  they are written, so `Url.text` only puts them together and two URLs are equal
  exactly if their parts are.
-/

namespace SchemaTypes

/-- The part of a URL after `//`. -/
structure Authority where
  user : String
  password : Option String
  host : String
  /-- The port, unless it is the usual one of the scheme. -/
  port : Option Nat
  deriving DecidableEq

/-- The path of a URL. -/
inductive UrlPath where
  /-- Text without structure, as behind `urn:`. -/
  | whole (text : String)
  /-- Segments, each after a slash. -/
  | segments (parts : List String)
  deriving DecidableEq

/-- An absolute URL without a fragment. -/
structure Url where
  scheme : String
  authority : Option Authority
  path : UrlPath
  query : Option String
  deriving DecidableEq

namespace Authority

/-- No user, host or port. -/
def empty : Authority := ⟨"", none, "", none⟩

/-- User and password, if any, with the sign that ends them. -/
def userText (a : Authority) : String :=
  match a.password with
  | some p => a.user ++ ":" ++ p ++ "@"
  | none => if a.user.isEmpty then "" else a.user ++ "@"

/-- The authority as written. -/
def text (a : Authority) : String :=
  a.userText ++ a.host ++ (match a.port with | some p => ":" ++ toString p | none => "")

end Authority

namespace UrlPath

/-- The path that a text is, which is empty or begins with a slash. -/
def ofText : List Char → UrlPath
  | [] => segments []
  | _ :: cs => segments ((cs.splitOn '/').map String.ofList)

/-- The path as written. -/
def text : UrlPath → String
  | whole t => t
  | segments parts => String.join (parts.map ("/" ++ ·))

/-- The last segment, if there are segments. -/
def last? : UrlPath → Option String
  | whole _ => none
  | segments parts => parts.getLast?

/-- The first segment, if there are segments. -/
def first? : UrlPath → Option String
  | whole _ => none
  | segments parts => parts.head?

/-- Whether a path that begins with two slashes could be taken for an authority. -/
def looksLikeAuthority : UrlPath → Bool
  | segments ("" :: _ :: _) => true
  | _ => false

end UrlPath

namespace Url

/-- The URL as written.  Without an authority, a path that begins with two slashes is
    preceded by a dot segment. -/
def text (u : Url) : String :=
  u.scheme ++ ":" ++
    (match u.authority with
      | some a => "//" ++ a.text
      | none => if u.path.looksLikeAuthority then "/." else "") ++
    u.path.text ++
    (match u.query with | some q => "?" ++ q | none => "")

/-- The schemes whose URLs always have a host and a path, with their usual ports. -/
def specialSchemes : List (String × Option Nat) :=
  [("http", some 80), ("https", some 443), ("ws", some 80), ("wss", some 443),
   ("ftp", some 21), ("file", none)]

/-- Whether a scheme is special. -/
def isSpecial (scheme : String) : Bool := specialSchemes.any (·.1 == scheme)

/-- The port that URLs of a scheme have unless they name one. -/
def usualPort? (scheme : String) : Option Nat := (specialSchemes.lookup scheme).join

/-- The host, unless there is none or it is empty. -/
def host? (u : Url) : Option String :=
  match u.authority with
  | some a => if a.host.isEmpty then none else some a.host
  | none => none

end Url

end SchemaTypes
