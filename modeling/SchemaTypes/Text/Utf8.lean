/-
  Characters from bytes.

  `encode` is UTF-8.  `decode` reads any bytes: where they are no UTF-8, the longest
  row of bytes that begins a character, or else one byte, becomes a replacement
  character.
-/

namespace SchemaTypes.Text.Utf8

/-- The bytes of a row of characters. -/
def encode (cs : List Char) : List UInt8 := cs.flatMap String.utf8EncodeChar

/-- A character whose first bytes were read. -/
structure Partial where
  /-- The bits read so far. -/
  value : Nat
  /-- How many bytes are missing. -/
  missing : Nat
  /-- The least and the greatest byte that may come next. -/
  low : Nat
  high : Nat

/-- What a first byte stands for: a character, the beginning of one, or neither. -/
inductive Start where
  | char (c : Char)
  | begun (p : Partial)
  | invalid

/-- The replacement character. -/
def replacement : Char := Char.ofNat 0xfffd

/-- Classifies a first byte. -/
def start (b : Nat) : Start :=
  if b < 0x80 then .char (Char.ofNat b)
  else if b < 0xc2 then .invalid
  else if b < 0xe0 then .begun ⟨b - 0xc0, 1, 0x80, 0xbf⟩
  else if b < 0xf0 then
    .begun ⟨b - 0xe0, 2, if b = 0xe0 then 0xa0 else 0x80, if b = 0xed then 0x9f else 0xbf⟩
  else if b < 0xf5 then
    .begun ⟨b - 0xf0, 3, if b = 0xf0 then 0x90 else 0x80, if b = 0xf4 then 0x8f else 0xbf⟩
  else .invalid

/-- Reads bytes after the beginning of a character, if one is pending. -/
def decodeFrom (pending : Option Partial) : List UInt8 → List Char
  | [] => if pending.isSome then [replacement] else []
  | b :: bs =>
    let b := b.toNat
    let fresh (_ : Unit) : List Char := match start b with
      | .char c => c :: decodeFrom none bs
      | .begun p => decodeFrom (some p) bs
      | .invalid => replacement :: decodeFrom none bs
    match pending with
    | none => fresh ()
    | some p =>
      if p.low ≤ b ∧ b ≤ p.high then
        let value := p.value * 64 + (b - 0x80)
        if p.missing ≤ 1 then Char.ofNat value :: decodeFrom none bs
        else decodeFrom (some ⟨value, p.missing - 1, 0x80, 0xbf⟩) bs
      else replacement :: fresh ()

/-- Reads bytes as UTF-8, whatever they are. -/
def decode (bs : List UInt8) : List Char := decodeFrom none bs

end SchemaTypes.Text.Utf8
