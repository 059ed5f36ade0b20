/-
  Punycode: a row of any characters as a row of letters, digits and hyphens.

  The ASCII characters come first; the others follow in the order of their code
  points, each as the distance from the one before, counted over all places where it
  could stand, in digits of base 36 whose thresholds adapt to the distances seen.

  `encode` writes a text this way; `decode?` reads it, where places and weights of digits
  stay below 2³².
-/

namespace SchemaTypes.Url.Punycode

/-! ## Digits -/

/-- The character of a digit. -/
def digitChar (d : Nat) : Char :=
  if d < 26 then Char.ofNat ('a'.toNat + d) else Char.ofNat ('0'.toNat + (d - 26))

/-- The value of a digit, whose letters are small. -/
def digitValue? (c : Char) : Option Nat :=
  if 'a' ≤ c ∧ c ≤ 'z' then some (c.toNat - 'a'.toNat)
  else if '0' ≤ c ∧ c ≤ '9' then some (c.toNat - '0'.toNat + 26)
  else none

/-- The threshold of the digit at position `k`, counted in steps of 36. -/
def threshold (k bias : Nat) : Nat := max 1 (min 26 (k - bias))

theorem threshold_pos (k bias : Nat) : 1 ≤ threshold k bias := by unfold threshold; omega

/-- Shrinks a distance until it is small, counting positions. -/
def shrink (delta k : Nat) : Nat × Nat :=
  if 455 < delta then shrink (delta / 35) (k + 36) else (delta, k)
termination_by delta
decreasing_by omega

/-- The bias after a distance, given how many characters were written. -/
def adapt (delta count : Nat) (first : Bool) : Nat :=
  let d := if first then delta / 700 else delta / 2
  let (d, k) := shrink (d + d / count) 0
  k + 36 * d / (d + 38)

/-- The digits of a distance, from position `k`. -/
def digits (bias k q : Nat) : List Char :=
  let t := threshold k bias
  if q < t then [digitChar q]
  else digitChar (t + (q - t) % (36 - t)) :: digits bias (k + 36) ((q - t) / (36 - t))
termination_by q
decreasing_by
  have := threshold_pos k bias
  have := Nat.div_le_self (q - threshold k bias) (36 - threshold k bias)
  omega

/-! ## Writing -/

/-- The state of the encoder. -/
structure Encoding where
  output : List Char
  delta : Nat
  bias : Nat
  /-- How many characters were written. -/
  written : Nat

/-- Passes a character of the input while code point `n` is written; `basic` ASCII
    characters were written first. -/
def pass (basic n : Nat) (s : Encoding) (c : Char) : Encoding :=
  if c.toNat < n then { s with delta := s.delta + 1 }
  else if c.toNat = n then
    { output := s.output ++ digits s.bias 36 s.delta
      delta := 0
      bias := adapt s.delta (s.written + 1) (s.written == basic)
      written := s.written + 1 }
  else s

/-- Writes the code points of a rising list; `previous` is the least that may come. -/
def writeAll (input : List Char) (basic : Nat) : List Nat → Nat → Encoding → Encoding
  | [], _, s => s
  | n :: rest, previous, s =>
    let s := { s with delta := s.delta + (n - previous) * (s.written + 1) }
    let s := input.foldl (pass basic n) s
    writeAll input basic rest (n + 1) { s with delta := s.delta + 1 }

/-- The characters as letters, digits and hyphens. -/
def encode (input : List Char) : List Char :=
  let basic := input.filter (·.toNat < 0x80)
  let others := ((input.map Char.toNat).filter (0x80 ≤ ·)).mergeSort.eraseReps
  let start := if basic.isEmpty then [] else basic ++ ['-']
  (writeAll input basic.length others 0x80 ⟨start, 0, 72, basic.length⟩).output

/-! ## Reading -/

/-- What places and weights stay below. -/
def limit : Nat := 0x100000000

/-- The state of the decoder. -/
structure Decoding where
  /-- The characters so far. -/
  output : List Char
  /-- The code point of the last character. -/
  codePoint : Nat
  /-- The place behind the last character. -/
  start : Nat
  /-- The next place, counted on through the code points, as far as it was read. -/
  place : Nat
  /-- What the next digit counts. -/
  weight : Nat
  /-- The position of the next digit, counted in steps of 36. -/
  k : Nat
  bias : Nat

/-- Puts in the character whose place was read. -/
def Decoding.insert? (s : Decoding) : Option Decoding :=
  let count := s.output.length + 1
  let n := s.codePoint + s.place / count
  let place := s.place % count
  if n < 0xd800 ∨ (0xdfff < n ∧ n < 0x110000) then
    some { output := s.output.insertIdx place (Char.ofNat n)
           codePoint := n
           start := place + 1
           place := place + 1
           weight := 1
           k := 36
           bias := adapt (s.place - s.start) count (s.start == 0) }
  else none

/-- Reads a digit; one below the threshold is the last of its number. -/
def Decoding.read? (s : Decoding) (c : Char) : Option Decoding := do
  let d ← digitValue? c
  let place := s.place + d * s.weight
  let t := threshold s.k s.bias
  let weight := s.weight * (36 - t)
  if limit ≤ place then none
  else if d < t then Decoding.insert? { s with place }
  else if limit ≤ weight then none
  else some { s with place, weight, k := s.k + 36 }

/-- The characters that a row of letters, digits and hyphens stands for: the ASCII
    characters stand before the last hyphen. -/
def decode? (cs : List Char) : Option (List Char) := do
  let (basic, digits) := match cs.reverse.span (· ≠ '-') with
    | (_, []) | (_, ['-']) => ([], cs)
    | (digits, _ :: basic) => (basic.reverse, digits.reverse)
  let s ← digits.foldlM Decoding.read? ⟨basic, 0x80, 0, 0, 1, 36, 72⟩
  if s.k = 36 then some s.output else none

end SchemaTypes.Url.Punycode
