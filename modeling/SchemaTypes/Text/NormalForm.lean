/-
  One spelling for characters with marks.

  The same text can be written with composite characters or with marks of their own, and
  with marks in another order.  `normalForm` takes everything apart, sorts the marks, and
  puts together what makes a composite.  The syllables of Hangul are computed; all other
  composites come from a table.
-/
import SchemaTypes.Text.CombiningClass
import SchemaTypes.Text.Composition

namespace SchemaTypes.Text

/-! ## Hangul -/

/-- The parts of a syllable of Hangul: an initial, a vowel, perhaps a final. -/
def hangulParts? (c : Char) : Option (List Char) :=
  if 0xac00 ≤ c.toNat ∧ c.toNat ≤ 0xd7a3 then
    let n := c.toNat - 0xac00
    let initial := Char.ofNat (0x1100 + n / 588)
    let vowel := Char.ofNat (0x1161 + n % 588 / 28)
    some (if n % 28 = 0 then [initial, vowel] else [initial, vowel, Char.ofNat (0x11a7 + n % 28)])
  else none

/-- The syllable of an initial and a vowel, or of a syllable without a final and one. -/
def hangulSyllable? (a b : Char) : Option Char :=
  let (m, n) := (a.toNat, b.toNat)
  if 0x1100 ≤ m ∧ m ≤ 0x1112 ∧ 0x1161 ≤ n ∧ n ≤ 0x1175 then
    some (Char.ofNat (0xac00 + ((m - 0x1100) * 21 + (n - 0x1161)) * 28))
  else if 0xac00 ≤ m ∧ m ≤ 0xd7a3 ∧ (m - 0xac00) % 28 = 0 ∧ 0x11a8 ≤ n ∧ n ≤ 0x11c2 then
    some (Char.ofNat (m + (n - 0x11a7)))
  else none

/-! ## Taking apart -/

/-- The parts of a composite, whose first part can be a composite again; none has more
    than `depth` of them within each other. -/
def compositeParts (depth : Nat) (c : Char) : List Char :=
  match depth, composites.image? c with
  | depth + 1, some (a :: rest) => compositeParts depth a ++ rest
  | _, _ => [c]

/-- The parts of a character. -/
def charParts (c : Char) : List Char :=
  if c.toNat < 0xc0 then [c]
  else match hangulParts? c with
    | some parts => parts
    | none => (expansions.image? c).getD (compositeParts 4 c)

/-- Puts a mark behind the others, which are kept last first: before those of a greater
    class. -/
def insertMark (c : Char) : List Char → List Char
  | [] => [c]
  | d :: back =>
    if combiningClass c < combiningClass d then d :: insertMark c back else c :: d :: back

/-- Sorts the marks behind each character; the text so far is kept last first. -/
def sortMarks (back : List Char) : List Char → List Char
  | [] => back.reverse
  | c :: cs => sortMarks (if combiningClass c = 0 then c :: back else insertMark c back) cs

/-- A text taken apart. -/
def takeApart (cs : List Char) : List Char := sortMarks [] (cs.flatMap charParts)

/-! ## Putting together -/

/-- The character that stands for two others. -/
def composite? (a b : Char) : Option Char :=
  match hangulSyllable? a b with
  | some c => some c
  | none => composites.charOf? [a, b]

/-- Puts together the marks behind a character, where the marks that stay behind it are
    kept last first: a mark goes into the character unless one of its class, or a
    character that is no mark, stays between them. -/
def putTogether (starter : Char) (back : List Char) : List Char → List Char
  | [] => starter :: back.reverse
  | c :: cs =>
    let free := match back with
      | [] => true
      | d :: _ => decide (combiningClass d < combiningClass c)
    match if free then composite? starter c else none with
    | some whole => putTogether whole back cs
    | none =>
      if combiningClass c = 0 then starter :: back.reverse ++ putTogether c [] cs
      else putTogether starter (c :: back) cs

/-- Puts together what follows each character that is no mark. -/
def compose : List Char → List Char
  | [] => []
  | c :: cs => if combiningClass c = 0 then putTogether c [] cs else c :: compose cs

/-- The spelling of a text. -/
def normalForm (cs : List Char) : List Char := compose (takeApart cs)

end SchemaTypes.Text
