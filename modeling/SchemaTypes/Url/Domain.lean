/-
  Domain names in ASCII.

  * `normal?` brings the characters of a name to one form;
  * `readLabel?` reads a label: one that begins with `xn--` stands for other characters;
  * `isWellFormed` and `keepsDirection` say which labels are allowed, the latter where some
    character of the name is written from right to left;
  * `toAscii?` is all of it: a label with other than ASCII characters becomes `xn--` and
    its Punycode.
-/
import SchemaTypes.Text.Direction
import SchemaTypes.Text.Joining
import SchemaTypes.Text.Mark
import SchemaTypes.Text.NormalForm
import SchemaTypes.Url.NameMap
import SchemaTypes.Url.Punycode

namespace SchemaTypes.Url.Domain

open Text

/-- Whether a character is ASCII. -/
def isAscii (c : Char) : Bool := decide (c.toNat < 0x80)

/-- What begins a label that is written in Punycode. -/
def punycodeMark : List Char := ['x', 'n', '-', '-']

/-- The longest label that is written in Punycode. -/
def longestLabel : Nat := 1000

/-- The longest Punycode of a label. -/
def longestPunycode : Nat := 2000

/-! ## Reading labels -/

/-- A name in one form; none where a character cannot stand in a name. -/
def normal? (cs : List Char) : Option (List Char) :=
  (cs.mapM nameChars?).map fun parts => normalForm parts.flatten

/-- Whether a label is in the form that names are brought to. -/
def isNormal (label : List Char) : Bool :=
  label.all (fun c => nameChars? c == some [c]) && normalForm label == label

/-- The characters of a label.  Punycode has to stand for a label in normal form that is
    not ASCII. -/
def readLabel? (label : List Char) : Option (List Char) :=
  if punycodeMark.isPrefixOf label then
    let code := label.drop punycodeMark.length
    if longestPunycode < code.length || !code.all isAscii then none
    else (Punycode.decode? code).filter fun cs => !cs.all isAscii && isNormal cs
  else some label

/-! ## Well formed labels -/

/-- Whether the last of some characters, which is kept first, is a virama: the sign that
    takes the vowel from a letter, and lets a joiner stand. -/
def followsVirama (back : List Char) : Bool :=
  match back with
  | c :: _ => combiningClass c == 9
  | [] => false

/-- Whether letters join across the place between two rows of characters, the first of
    which is kept last character first. -/
def joinAcross (back cs : List Char) : Bool :=
  ((back.dropWhile isTransparent).head?.any joinsNext) &&
    ((cs.dropWhile isTransparent).head?.any joinsPrevious)

/-- Whether the joiners behind some characters, the last one first, may stand where they
    are. -/
def joinersFit (back : List Char) : List Char → Bool
  | [] => true
  | c :: cs =>
    (if c.toNat == 0x200d then followsVirama back
     else if c.toNat == 0x200c then followsVirama back || joinAcross back cs
     else true) && joinersFit (c :: back) cs

/-- Whether a label begins with no mark and has joiners only where they have a meaning. -/
def isWellFormed (label : List Char) : Bool :=
  !label.head?.any isMark && joinersFit [] label

/-! ## Directions -/

/-- Whether a character makes the direction of the labels matter. -/
def isFromRight (c : Char) : Bool := direction c == .right || direction c == .arabicDigit

/-- The direction of the last character that is no mark. -/
def lastDirection? (ds : List Direction) : Option Direction :=
  (ds.reverse.dropWhile (· == .mark)).head?

/-- Whether characters of these directions keep to the direction of the first. -/
def keepsDirection (ds : List Direction) : Bool :=
  match ds.head? with
  | none => true
  | some .left =>
    ds.all (fun d => d == .left || d == .digit || d == .neutral || d == .mark) &&
      (lastDirection? ds).any fun d => d == .left || d == .digit
  | some .right =>
    ds.all (· != .left) &&
      ((lastDirection? ds).any fun d => d == .right || d == .digit || d == .arabicDigit) &&
      !(ds.contains .digit && ds.contains .arabicDigit)
  | some _ => false

/-! ## Names -/

/-- A label in ASCII; none for one that is too long. -/
def asciiLabel? (cs : List Char) : Option (List Char) :=
  if cs.all isAscii then some cs
  else if longestLabel < cs.length then none
  else some (punycodeMark ++ Punycode.encode cs)

/-- A name in ASCII; none for text that is no name. -/
def toAscii? (cs : List Char) : Option (List Char) := do
  let name ← normal? cs
  let labels ← (name.splitOn '.').mapM readLabel?
  if labels.all isWellFormed &&
      (!labels.any (·.any isFromRight) || labels.all fun l => keepsDirection (l.map direction)) then
    (labels.mapM asciiLabel?).map (List.intercalate ['.'])
  else none

end SchemaTypes.Url.Domain
