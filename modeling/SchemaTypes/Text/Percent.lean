/-
  Percent escapes: `%` and two hexadecimal digits stand for a byte.

  `decode` undoes escapes and leaves every other character; `encode` escapes the
  bytes of the characters that a given class selects.
-/
import SchemaTypes.Text.Digit
import SchemaTypes.Text.Utf8

namespace SchemaTypes.Text.Percent

/-- The bytes that a text with escapes stands for. -/
def bytes : List Char → List UInt8
  | [] => []
  | '%' :: a :: b :: cs =>
    match hexDigit? a, hexDigit? b with
    | some x, some y => UInt8.ofNat (x * 16 + y) :: bytes cs
    | _, _ => String.utf8EncodeChar '%' ++ bytes (a :: b :: cs)
  | c :: cs => String.utf8EncodeChar c ++ bytes cs

/-- The characters that a text with escapes stands for. -/
def decode (cs : List Char) : List Char := Utf8.decode (bytes cs)

/-- The escape of a byte. -/
def escape (b : UInt8) : List Char := ['%', hexDigit 'A' (b.toNat / 16), hexDigit 'A' (b.toNat % 16)]

/-- Escapes the selected characters. -/
def encode (selected : Char → Bool) (cs : List Char) : List Char :=
  cs.flatMap fun c => if selected c then (String.utf8EncodeChar c).flatMap escape else [c]

end SchemaTypes.Text.Percent
