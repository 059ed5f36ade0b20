/-
  Tables of characters and the characters they stand for, written as text.

  An entry is the code point of a character, a colon and the code points that it stands
  for, joined by plus signs: `bc:31+2044+34`.  An entry for a run of characters gives the
  first and the last one, which stand for a run of the same length: `b2-b3:32`.  All
  numbers are hexadecimal, and blanks separate the entries.
-/
import SchemaTypes.Text.Digit

namespace SchemaTypes.Text

/-- The characters from `first` to `last` and what they stand for. -/
structure CharRun where
  first : Nat
  last : Nat
  /-- What `first` stands for; a single code point goes up with the character. -/
  target : List Nat

/-- A row of entries; the first one that holds a character counts. -/
abbrev CharTable := List CharRun

namespace CharRun

/-- A row of hexadecimal digits. -/
def readNumber (cs : List Char) : Nat := cs.foldl (fun n c => n * 16 + (hexDigit? c).getD 0) 0

/-- Reads an entry. -/
def read (cs : List Char) : CharRun :=
  let (characters, target) := cs.span (· ≠ ':')
  let (first, last) := characters.span (· ≠ '-')
  { first := readNumber first
    last := readNumber (if last.isEmpty then first else last.drop 1)
    target := ((target.drop 1).splitOn '+').map readNumber }

/-- What a character of the run stands for. -/
def image (r : CharRun) (c : Char) : List Char :=
  match r.target with
  | [n] => [Char.ofNat (n + (c.toNat - r.first))]
  | ns => ns.map Char.ofNat

end CharRun

namespace CharTable

/-- Reads a table. -/
def ofText (text : String) : CharTable :=
  let lines := text.toList.splitOn '\n'
  ((lines.flatMap (·.splitOn ' ')).filter (!·.isEmpty)).map CharRun.read

/-- What a character stands for. -/
def image? (t : CharTable) (c : Char) : Option (List Char) :=
  (t.find? fun r => decide (r.first ≤ c.toNat ∧ c.toNat ≤ r.last)).map (·.image c)

/-- The first character that stands for others. -/
def charOf? (t : CharTable) (cs : List Char) : Option Char :=
  (t.find? fun r => r.target == cs.map Char.toNat).map fun r => Char.ofNat r.first

end CharTable

end SchemaTypes.Text
