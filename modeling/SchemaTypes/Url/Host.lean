/-
  Hosts of URLs.

  A host of a special scheme is a domain name, an IPv4 or an IPv6 address, each in
  normal form (`readHost?`); other schemes keep the text, escaped (`readPlainHost?`).
  Domain names are decoded, brought to lower case, and labels with other than ASCII
  characters are written in the `xn--` form.
-/
import SchemaTypes.Text.Percent
import SchemaTypes.Url.Domain

namespace SchemaTypes.Url

open Text

/-! ## IPv4 -/

/-- The value of a digit in a base up to 16. -/
def digitIn? (base : Nat) (c : Char) : Option Nat :=
  (hexDigit? c).filter (· < base)

/-- A row of digits in a base; no digits stand for zero. -/
def numberIn? (base : Nat) (cs : List Char) : Option Nat :=
  cs.foldl (fun acc c => do return (← acc) * base + (← digitIn? base c)) (some 0)

/-- A part of an IPv4 address: decimal, octal after `0`, hexadecimal after `0x`. -/
def ipv4Part? : List Char → Option Nat
  | [] => none
  | '0' :: 'x' :: cs => numberIn? 16 cs
  | '0' :: 'X' :: cs => numberIn? 16 cs
  | '0' :: c :: cs => numberIn? 8 (c :: cs)
  | cs => numberIn? 10 cs

/-- The labels of a domain name, without an empty one at the end. -/
def labels (cs : List Char) : List (List Char) :=
  let ls := cs.splitOn '.'
  if ls.getLast? = some [] then ls.dropLast else ls

/-- Whether the last label is a number, so that the name must be an IPv4 address. -/
def endsInNumber (cs : List Char) : Bool :=
  match (labels cs).getLast? with
  | none => false
  | some l =>
    (!l.isEmpty && l.all fun c => decide ('0' ≤ c ∧ c ≤ '9')) || (ipv4Part? l).isSome

/-- The address that one to four parts stand for: the last fills the bytes left. -/
def ipv4Value? (parts : List Nat) : Option Nat :=
  match parts.reverse with
  | [] => none
  | last :: before =>
    let n := before.length
    if 3 < n ∨ before.any (255 < ·) ∨ 1 <<< (8 * (4 - n)) ≤ last then none
    else some (before.reverse.zipIdx.foldl (fun acc (p, i) => acc + p <<< (8 * (3 - i))) last)

/-- An IPv4 address as written. -/
def ipv4Text (n : Nat) : String :=
  ".".intercalate ([3, 2, 1, 0].map fun i => toString (n >>> (8 * i) % 256))

/-- Reads an IPv4 address. -/
def ipv4? (cs : List Char) : Option Nat := do
  ipv4Value? (← (labels cs).mapM ipv4Part?)

/-! ## IPv6 -/

/-- The pieces of a row between colons; the last may be an IPv4 address, worth two. -/
def ipv6Pieces? : List (List Char) → Option (List Nat)
  | [] => some []
  | [p] =>
    if p.contains '.' then
      let parts := p.splitOn '.'
      if parts.length = 4 then do
        let ns ← parts.mapM fun q =>
          if q.isEmpty ∨ (1 < q.length ∧ q.head? = some '0') then none
          else (numberIn? 10 q).filter (· < 256)
        match ns with
        | [a, b, c, d] => some [a * 256 + b, c * 256 + d]
        | _ => none
      else none
    else if p.isEmpty ∨ 4 < p.length then none
    else (numberIn? 16 p).map fun n => [n]
  | p :: ps => do
    if p.isEmpty ∨ 4 < p.length then none
    else return (← numberIn? 16 p) :: (← ipv6Pieces? ps)

/-- Splits at the first `::`. -/
def splitGap : List Char → List Char × Option (List Char)
  | [] => ([], none)
  | ':' :: ':' :: cs => ([], some cs)
  | c :: cs => let (a, b) := splitGap cs; (c :: a, b)

/-- The pieces between single colons; none for no text. -/
def ipv6Row? (cs : List Char) : Option (List Nat) :=
  if cs.isEmpty then some [] else ipv6Pieces? (cs.splitOn ':')

/-- Reads the eight pieces of an IPv6 address; `::` stands for one or more zeros. -/
def ipv6? (cs : List Char) : Option (List Nat) :=
  match splitGap cs with
  | (row, none) => (ipv6Row? row).filter (·.length = 8)
  | (before, some after) => do
    if before.contains '.' then none
    else
      let a ← ipv6Row? before
      let b ← ipv6Row? after
      if a.length + b.length < 8 then
        some (a ++ List.replicate (8 - a.length - b.length) 0 ++ b)
      else none

/-- A number in lower-case hexadecimal digits. -/
def hexText (n : Nat) : String := String.ofList (Nat.toDigits 16 n)

/-- How many zeros begin a row. -/
def leadingZeros (ps : List Nat) : Nat := (ps.takeWhile (· = 0)).length

/-- The first of the longest rows of zeros: where it begins and how long it is. -/
def longestZeros (ps : List Nat) : Nat × Nat :=
  (List.range ps.length).foldl
    (fun best i => let n := leadingZeros (ps.drop i); if best.2 < n then (i, n) else best) (0, 0)

/-- An IPv6 address as written: the first longest row of two or more zeros is `::`. -/
def ipv6Text (ps : List Nat) : String :=
  let (at_, n) := longestZeros ps
  let join (l : List Nat) := ":".intercalate (l.map hexText)
  if 2 ≤ n then "[" ++ join (ps.take at_) ++ "::" ++ join (ps.drop (at_ + n)) ++ "]"
  else "[" ++ join ps ++ "]"

/-! ## Hosts -/

/-- Characters that no host may hold. -/
def isForbiddenInHost (c : Char) : Bool :=
  c = '\x00' || c = '\t' || c = '\n' || c = '\r' || c = ' ' || c = '#' || c = '/' || c = ':' ||
  c = '<' || c = '>' || c = '?' || c = '@' || c = '[' || c = '\\' || c = ']' || c = '^' || c = '|'

/-- Characters that no domain name may hold. -/
def isForbiddenInDomain (c : Char) : Bool :=
  isForbiddenInHost c || c = '%' || decide (c.toNat ≤ 0x1f) || c.toNat == 0x7f

/-- Reads what stands between brackets. -/
def readBracketed? : List Char → Option String
  | '[' :: cs => if cs.getLast? = some ']' then (ipv6? cs.dropLast).map ipv6Text else none
  | _ => none

/-- The host of a special scheme. -/
def readHost? (cs : List Char) : Option String :=
  if cs.head? = some '[' then readBracketed? cs
  else do
    let name ← Domain.toAscii? (Percent.decode cs)
    if name.isEmpty ∨ name.any isForbiddenInDomain then none
    else if endsInNumber name then (ipv4? name).map ipv4Text
    else some (String.ofList name)

/-- The host of any other scheme. -/
def readPlainHost? (cs : List Char) : Option String :=
  if cs.head? = some '[' then readBracketed? cs
  else if cs.any isForbiddenInHost then none
  else some (String.ofList (Percent.encode (fun c => decide (c.toNat ≤ 0x1f ∨ 0x7e < c.toNat)) cs))

end SchemaTypes.Url
