/-
  Reading the paths of URLs.

  A path is read character by character onto the text of what precedes it: nothing but a
  slash, or a part of the path of a base.  Dot segments are resolved as they end.  The
  text under construction is kept last character first, so that its last segment is at
  hand.

  Segments that name a drive, a letter and a colon or a bar, are special: two dots do
  not take the slash behind one away, and in files

  * the first segment of a path becomes a drive in normal form, and leaves no host;
  * a drive in normal form is never dropped;
  * a path that is a drive in normal form so far gets a slash before more text.
-/
import SchemaTypes.Text.Percent
import SchemaTypes.Url

namespace SchemaTypes.Url

open Text

/-! ## Escapes -/

/-- Control characters and everything beyond ASCII. -/
def isControl (c : Char) : Bool := decide (c.toNat ≤ 0x1f ∨ 0x7e < c.toNat)

/-- Characters escaped in the segments of a path. -/
def escapedInPath (c : Char) : Bool :=
  isControl c || c = ' ' || c = '"' || c = '<' || c = '>' || c = '`' || c = '#' || c = '?' ||
  c = '\x7b' || c = '\x7d'

/-- Escapes the selected characters of a part. -/
def escape (selected : Char → Bool) (cs : List Char) : String :=
  String.ofList (Percent.encode selected cs)

/-! ## Characters -/

/-- Tabs and line breaks, which stand for nothing. -/
def isBreak (c : Char) : Bool := c = '\t' || c = '\n' || c = '\r'

/-- Whether a character separates segments. -/
def isSlash (special : Bool) (c : Char) : Bool := c = '/' || (special && c = '\\')

/-- Whether a character is an ASCII letter. -/
def isLetter (c : Char) : Bool := c.isAlpha

/-! ## Segments -/

/-- Whether a segment is a single dot, perhaps escaped. -/
def isDotSegment (s : String) : Bool := s == "." || s == "%2e" || s == "%2E"

/-- Whether a segment is a double dot, perhaps escaped. -/
def isDoubleDotSegment (s : String) : Bool :=
  s == ".." || s == "%2e%2e" || s == "%2e%2E" || s == "%2E%2e" || s == "%2E%2E" ||
  s == "%2e." || s == "%2E." || s == ".%2e" || s == ".%2E"

/-- Whether a segment names a drive: a letter and a colon or a bar. -/
def isDrive : List Char → Bool
  | [a, b] => isLetter a && (b = ':' || b = '|')
  | _ => false

/-- Whether a segment names a drive in normal form. -/
def isNormalDrive : List Char → Bool
  | [a, b] => isLetter a && b = ':'
  | _ => false

/-- Whether a text begins with the name of a drive that goes no further. -/
def beginsWithDrive : List Char → Bool
  | a :: b :: rest =>
    isLetter a && (b = ':' || b = '|') &&
      (match rest with
        | [] => true
        | c :: _ => c = '/' || c = '\\' || c = '?')
  | _ => false

/-! ## Text read backwards -/

/-- The last segment of a text that is kept last character first. -/
def lastSegment (back : List Char) : List Char := (back.takeWhile (· ≠ '/')).reverse

/-- Drops the last segment; a drive of a file stays. -/
def dropSegment (file : Bool) (back : List Char) : List Char :=
  if file && isNormalDrive (lastSegment back) then back else back.dropWhile (· ≠ '/')

/-- Whether two dots take the last slash away: not the first slash of a path, nor one
    behind a drive. -/
def isSlashLoose : List Char → Bool
  | '/' :: back => back.contains '/' && !beginsWithDrive (lastSegment back ++ ['/'])
  | _ => false

/-- A path under construction. -/
structure PathReading where
  /-- What precedes the segment that is being read, last character first. -/
  before : List Char
  /-- The segment that is being read, last character first. -/
  segment : List Char
  /-- Whether no character was read since the segment or the last break began. -/
  fresh : Bool
  /-- Whether a drive began the path. -/
  drive : Bool

namespace PathReading

/-- A path of which some text is there. -/
def after (before : List Char) : PathReading := ⟨before, [], true, false⟩

/-- The whole text, last character first. -/
def back (p : PathReading) : List Char := p.segment ++ p.before

/-- The text with a slash at its end. -/
def withSlash : List Char → List Char
  | '/' :: back => '/' :: back
  | back => '/' :: back

/-- Ends a segment, perhaps with a slash. -/
def close (file closed : Bool) (p : PathReading) : PathReading :=
  let s := String.ofList p.segment.reverse
  if isDoubleDotSegment s then
    let shorter := dropSegment file (if isSlashLoose p.before then p.before.drop 1 else p.before)
    ⟨if closed then withSlash shorter else shorter, [], true, p.drive⟩
  else if isDotSegment s then ⟨withSlash p.before, [], true, p.drive⟩
  else if file && p.before.length = 1 && isDrive p.segment.reverse then
    let named := ':' :: (p.segment.drop 1 ++ p.before)
    ⟨if closed then '/' :: named else named, [], true, true⟩
  else ⟨if closed then '/' :: p.back else p.back, [], true, p.drive⟩

/-- Puts a slash behind a path that is a drive in normal form and nothing else, where text
    follows.  The segment goes on behind its first character. -/
def separate (file : Bool) (p : PathReading) : PathReading :=
  match p.back with
  | [':', a, '/'] =>
    if file && p.fresh && isLetter a then
      let segment := '/' :: p.segment
      { p with before := segment.drop (segment.length - 1) ++ p.before
               segment := segment.take (segment.length - 1) }
    else p
  | _ => p

/-- Reads one more character of a segment. -/
def push (file : Bool) (p : PathReading) (c : Char) : PathReading :=
  let p := p.separate file
  { p with segment := (Percent.encode escapedInPath [c]).reverse ++ p.segment, fresh := false }

/-- Reads the rest of a path. -/
def read (special file : Bool) (p : PathReading) : List Char → PathReading
  | [] => p.close file false
  | c :: cs =>
    if isBreak c then read special file { p with fresh := true } cs
    else if isSlash special c then read special file (p.close file true) cs
    else read special file (p.push file c) cs

/-- The text that was read.  In files it begins with just one slash. -/
def text (file : Bool) (p : PathReading) : List Char :=
  if file then '/' :: p.back.reverse.dropWhile (· = '/') else p.back.reverse

end PathReading

end SchemaTypes.Url
