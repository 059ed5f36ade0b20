/-
  Reading URLs, alone or relative to another one.

  `Url.parse?` reads an absolute URL, `Url.join?` a reference relative to a base.  The
  text carries no fragment.  Blanks and control characters around it, and tabs and line
  breaks anywhere, are left out; in special schemes a backslash counts as a slash, dot
  segments are resolved, and every part is escaped as its place demands.
-/
import SchemaTypes.Url.Host
import SchemaTypes.Url.Path

namespace SchemaTypes.Url

open Text

/-! ## Escapes -/

/-- Characters escaped in a segment that is given as a file name. -/
def escapedInFileName (c : Char) : Bool := escapedInPath c || c = '/' || c = '%' || c = '\\'

/-- Characters escaped in user names and passwords. -/
def escapedInUser (c : Char) : Bool :=
  escapedInPath c || c = '/' || c = ':' || c = ';' || c = '=' || c = '@' || c = '[' ||
  c = '\\' || c = ']' || c = '^' || c = '|'

/-- Characters escaped in a query. -/
def escapedInQuery (special : Bool) (c : Char) : Bool :=
  isControl c || c = ' ' || c = '"' || c = '#' || c = '<' || c = '>' || (special && c = '\'')

/-! ## Texts with breaks -/

/-- Leaves out blanks and control characters around a text. -/
def trim (cs : List Char) : List Char :=
  let blank (c : Char) : Bool := decide (c.toNat ≤ 0x20)
  ((cs.dropWhile blank).reverse.dropWhile blank).reverse

/-- A text without its tabs and line breaks. -/
def joinLines (cs : List Char) : List Char := cs.filter (!isBreak ·)

/-- A text from its first character that is no break. -/
def skipBreaks (cs : List Char) : List Char := cs.dropWhile isBreak

/-- What follows a slash, if a text begins with one. -/
def afterSlash? (special : Bool) (cs : List Char) : Option (List Char) :=
  match skipBreaks cs with
  | c :: rest => if isSlash special c then some rest else none
  | [] => none

/-- How many slashes begin a text, backslashes among them, and what follows. -/
def countSlashes (cs : List Char) : Nat × List Char :=
  let rest := cs.dropWhile fun c => isBreak c || isSlash true c
  (((cs.take (cs.length - rest.length)).filter (isSlash true)).length, rest)

/-- Splits a text into what precedes the first question mark and the query. -/
def splitQuery (scheme : String) (cs : List Char) : List Char × Option String :=
  match cs.span (· ≠ '?') with
  | (before, _ :: query) =>
    (before, some (escape (escapedInQuery (isSpecial scheme)) (joinLines query)))
  | (before, []) => (before, none)

/-! ## Paths -/

/-- Reads a path behind some text, which is kept last character first. -/
def pathAfter (scheme : String) (before cs : List Char) : PathReading :=
  (PathReading.after before).read (isSpecial scheme) (scheme == "file") cs

/-- The path that was read. -/
def pathOf (scheme : String) (p : PathReading) : UrlPath := .ofText (p.text (scheme == "file"))

/-- Reads the path after an authority: it begins with a slash, written or not; only
    special schemes have a path where nothing is written. -/
def rootPath (scheme : String) (cs : List Char) : PathReading :=
  match afterSlash? (isSpecial scheme) cs with
  | some rest => pathAfter scheme ['/'] rest
  | none =>
    if isSpecial scheme || !(skipBreaks cs).isEmpty then pathAfter scheme ['/'] cs
    else .after []

/-! ## Authorities -/

/-- Splits at the last `@`. -/
def splitUser (cs : List Char) : Option (List Char) × List Char :=
  match cs.reverse.span (· ≠ '@') with
  | (host, _ :: user) => (some user.reverse, host.reverse)
  | (_, []) => (none, cs)

/-- Reads the port behind a colon, up to a slash: none for no digits or the usual one. -/
def port? (scheme : String) (cs : List Char) : Option (Option Nat × List Char) := do
  let (digits, rest) := cs.span (digit? · |>.isSome)
  let n ← digits.foldl (fun acc c => do
    let n := (← acc) * 10 + (← digit? c)
    if n ≤ 65535 then some n else none) (some 0)
  if rest.isEmpty || (afterSlash? true rest).isSome then
    return (if digits.isEmpty ∨ usualPort? scheme = some n then none else some n, rest)
  else none

/-- Splits a host from a port: at the first colon outside brackets. -/
def splitPort (inside : Bool) : List Char → List Char × Option (List Char)
  | [] => ([], none)
  | c :: cs =>
    if c = ':' && !inside then ([], some cs)
    else
      let (host, port) := splitPort (if c = '[' then true else if c = ']' then false else inside) cs
      (c :: host, port)

/-- User name and password, as written. -/
def userParts (cs : List Char) : String × Option String :=
  match cs.span (· ≠ ':') with
  | (user, _ :: password) =>
    (escape escapedInUser user,
      if password.isEmpty then none else some (escape escapedInUser password))
  | (user, []) => (escape escapedInUser user, none)

/-- Reads the authority of a scheme other than `file`, and what follows the port: it can
    end with a backslash that does not end the host.  Without a host there is no user and
    no port. -/
def authority? (scheme : String) (cs : List Char) : Option (Authority × List Char) := do
  let special := isSpecial scheme
  let (user, place) := splitUser (joinLines cs)
  let (hostText, portText) := splitPort false place
  let (name, password) := userParts (user.getD [])
  if hostText.isEmpty ∧ (special ∨ portText.isSome ∨ !name.isEmpty ∨ password.isSome) then none
  else
    let host ← if special then readHost? hostText else readPlainHost? hostText
    let (port, rest) ← match portText with
      | some p => port? scheme p
      | none => some (none, [])
    return (⟨name, password, host, port⟩, rest)

/-! ## Parts -/

/-- Reads what follows `//`: authority, path and query.  An authority that is just the
    sign behind a user has to end the text. -/
def afterSlashes? (scheme : String) (cs : List Char) : Option Url := do
  let (before, query) := splitQuery scheme cs
  let (place, path) := before.span fun c => !isSlash (isSpecial scheme) c
  if joinLines place = ['@'] ∧ (!path.isEmpty ∨ query.isSome) then none
  else
    let (authority, rest) ← authority? scheme place
    return ⟨scheme, some authority, pathOf scheme (rootPath scheme (rest ++ path)), query⟩

/-- Splits off the scheme, in lower case. -/
def splitScheme (cs : List Char) : Option (String × List Char) :=
  match cs.span (· ≠ ':') with
  | (name, _ :: rest) =>
    match joinLines name with
    | c :: more =>
      if isLetter c && more.all fun c => c.isAlphanum || c = '+' || c = '-' || c = '.' then
        some (String.ofList ((c :: more).map Char.toLower), rest)
      else none
    | [] => none
  | (_, []) => none

/-! ## Files -/

/-- The host of a file: none for `localhost`. -/
def fileHost? (cs : List Char) : Option String :=
  if cs.isEmpty then some "" else (readHost? cs).map fun h => if h == "localhost" then "" else h

/-- A file with a host. -/
def fileUrl (host : String) (path : PathReading) (query : Option String) : Url :=
  ⟨"file", some { Authority.empty with host }, pathOf "file" path, query⟩

/-- Reads what follows `file://`.  A drive in the place of the host begins the path, and a
    drive that begins the path leaves no host.  Where there is no host, the slash behind it
    counts as an empty segment. -/
def hostedFile? (cs : List Char) (query : Option String) : Option Url :=
  let (place, path) := cs.span fun c => !isSlash true c
  let hostText := joinLines place
  if isDrive hostText then some (fileUrl "" (pathAfter "file" ['/'] cs) query)
  else
    (fileHost? hostText).map fun host =>
      if host.isEmpty then fileUrl "" (pathAfter "file" ['/'] path) query
      else
        let p := rootPath "file" path
        fileUrl (if p.drive then "" else host) p query

/-- Reads what follows `file:` and one slash, which is part of the text; from a base come
    its drive or else its host, unless a drive is given. -/
def rootedFile (base : Option Url) (rest cs : List Char) (query : Option String) : Url :=
  match base with
  | some b =>
    if beginsWithDrive (joinLines rest) then fileUrl "" (pathAfter "file" [] cs) query
    else
      let first := (b.path.first?.getD "").toList
      if isNormalDrive first then fileUrl "" (pathAfter "file" (first.reverse ++ ['/']) cs) query
      else fileUrl (b.host?.getD "") (pathAfter "file" [] cs) query
  | none => fileUrl "" (pathAfter "file" [] cs) query

/-- Reads what follows `file:`, relative to a file if one is given. -/
def file? (base : Option Url) (cs : List Char) : Option Url :=
  let (before, query) := splitQuery "file" cs
  match afterSlash? true before with
  | some rest =>
    match afterSlash? true rest with
    | some rest' => hostedFile? rest' query
    | none => some (rootedFile base rest before query)
  | none =>
    match base with
    | none => some (fileUrl "" (pathAfter "file" ['/'] before) query)
    | some b =>
      if (skipBreaks before).isEmpty then
        some { b with query := if query.isSome then query else b.query }
      else if beginsWithDrive (joinLines before) then
        some (fileUrl "" (pathAfter "file" ['/'] before) query)
      else
        let path := pathAfter "file" (dropSegment true b.path.text.toList.reverse) before
        some { b with path := pathOf "file" path, query }

/-! ## URLs -/

/-- Reads a reference without a scheme relative to a base that is no file.  Two slashes
    of either kind begin an authority. -/
def relative? (base : Url) (cs : List Char) : Option Url :=
  let scheme := base.scheme
  let (before, query) := splitQuery scheme cs
  match skipBreaks before with
  | [] => some { base with query := if query.isSome then query else base.query }
  | c :: rest =>
    if isSlash true c then
      let (slashes, remaining) := countSlashes cs
      if 2 ≤ slashes then
        match (afterSlash? false cs).bind (afterSlash? false) with
        | some after => afterSlashes? scheme after
        | none => afterSlashes? scheme remaining
      else some { base with path := pathOf scheme (pathAfter scheme ['/'] rest), query }
    else
      let shorter := dropSegment false base.path.text.toList.reverse
      let path := pathAfter scheme (if shorter.isEmpty then ['/'] else shorter) before
      some { base with path := pathOf scheme path, query }

/-- Reads what follows a scheme, perhaps relative to a base. -/
def afterScheme? (base : Option Url) (scheme : String) (cs : List Char) : Option Url :=
  if scheme == "file" then file? (base.filter (·.scheme == "file")) cs
  else if isSpecial scheme then
    let (slashes, rest) := countSlashes cs
    match base with
    | some b =>
      if b.scheme == scheme && slashes < 2 then relative? b cs else afterSlashes? scheme rest
    | none => afterSlashes? scheme rest
  else
    match (afterSlash? false cs).bind (afterSlash? false) with
    | some rest => afterSlashes? scheme rest
    | none =>
      let (before, query) := splitQuery scheme cs
      match afterSlash? false before with
      | some rest => some ⟨scheme, none, pathOf scheme (pathAfter scheme ['/'] rest), query⟩
      | none => some ⟨scheme, none, .whole (escape isControl (joinLines before)), query⟩

/-- Reads an absolute URL. -/
def parse? (text : String) : Option Url :=
  match splitScheme (trim text.toList) with
  | some (scheme, rest) => afterScheme? none scheme rest
  | none => none

/-- Reads a reference relative to a base. -/
def join? (base : Url) (text : String) : Option Url :=
  let cs := trim text.toList
  match splitScheme cs with
  | some (scheme, rest) => afterScheme? (some base) scheme rest
  | none =>
    match base.path with
    | .whole _ => none
    | .segments _ => if base.scheme == "file" then file? (some base) cs else relative? base cs

/-- The URL with another path, which is read anew.  Where the authority is empty and the
    scheme not special, text that does not begin with a slash becomes the host. -/
def withPath (u : Url) (text : String) : Url :=
  match u.path, u.authority with
  | .whole _, _ => { u with path := .whole (escape isControl text.toList) }
  | .segments _, authority =>
    if text.startsWith "/" then
      { u with path := pathOf u.scheme (pathAfter u.scheme [] text.toList) }
    else if !isSpecial u.scheme && authority == some .empty then
      { u with authority := some { Authority.empty with host := escape escapedInPath text.toList }
               path := .segments [] }
    else { u with path := pathOf u.scheme (pathAfter u.scheme ['/'] text.toList) }

end SchemaTypes.Url
