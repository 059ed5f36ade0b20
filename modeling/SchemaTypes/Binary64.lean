/-
  Finite double-precision numbers, exactly: the numbers of documents.

  A finite double is a sign and a *rank*: the position of its absolute value
  among the non-negative doubles, 0 first.  The rank is also the value of the
  exponent and fraction fields read as one number, so neighbouring doubles have
  neighbouring ranks and rounding never needs a carry.

  * `units` is the absolute value as a multiple of `2^-1074`, a natural number;
  * `key` orders doubles as numbers: both zeros have key 0;
  * `nearest?` is the double nearest to a quotient, ties going to the even rank,
    and `none` beyond the largest finite double;
  * `mul?`, `div?` and `ofNat` are the exact results rounded that way.
-/

namespace SchemaTypes

/-- The number of doubles from one power of two to the next, `2^52`. -/
def Binary64.binade : Nat := 0x10000000000000

/-- The rank after the largest finite double. -/
def Binary64.rankLimit : Nat := 0x7ff * Binary64.binade

/-- A finite double-precision number. -/
structure Binary64 where
  negative : Bool
  /-- The position of the absolute value among the non-negative doubles. -/
  rank : Nat
  finite : rank < Binary64.rankLimit
  deriving DecidableEq

namespace Binary64

/-- The absolute value of the double of rank `r`, in units of `2^-1074`: the
    spacing is one unit for the first `2^53` ranks and doubles every `2^52`
    ranks from there. -/
def unitsOfRank (r : Nat) : Nat :=
  if r < binade then r else (binade + r % binade) <<< (r / binade - 1)

/-- The absolute value in units of `2^-1074`. -/
def units (x : Binary64) : Nat := unitsOfRank x.rank

/-- Positive zero. -/
def zero : Binary64 := ⟨false, 0, by decide⟩

instance : Inhabited Binary64 := ⟨zero⟩

/-- The number with the other sign. -/
def neg (x : Binary64) : Binary64 := { x with negative := !x.negative }

/-- The place of a number in the order of numbers. -/
def key (x : Binary64) : Int := if x.negative then -(x.rank : Int) else x.rank

/-- Numeric equality: the two zeros are equal. -/
instance : BEq Binary64 := ⟨fun x y => x.key == y.key⟩

/-- Whether the number has no fractional part. -/
def isWhole (x : Binary64) : Bool := x.units % (1 <<< 1074) == 0

/-! ## Rounding -/

/-- The quotient rounded to the nearest natural number, a half to the even one. -/
def roundQuotient (num den : Nat) : Nat :=
  let q := num / den
  let r := num % den
  if 2 * r < den then q else if den < 2 * r then q + 1 else q + q % 2

/-- The rank nearest to `num / den` units of `2^-1074`. -/
def rankOfQuotient (num den : Nat) : Nat :=
  let bits := Nat.log2 (num / den) + 1
  let shift := bits - 53
  shift * binade + roundQuotient num (den <<< shift)

/-- The double nearest to `num / den`, if it is finite. -/
def nearest? (num den : Nat) : Option Binary64 :=
  let r := rankOfQuotient (num <<< 1074) den
  if h : r < rankLimit then some ⟨false, r, h⟩ else none

/-- The double nearest to a natural number, if it is finite. -/
def ofNat? (n : Nat) : Option Binary64 := nearest? n 1

/-- The double nearest to an integer; zero for one beyond the doubles, which no
    64-bit integer is. -/
def ofInt (n : Int) : Binary64 :=
  let x := (ofNat? n.natAbs).getD zero
  if n < 0 then x.neg else x

/-- The product rounded to the nearest double, for non-negative factors. -/
def mul? (x y : Binary64) : Option Binary64 := nearest? (x.units * y.units) (1 <<< 2148)

/-- The quotient rounded to the nearest double, for a non-negative dividend and a
    positive divisor. -/
def div? (x y : Binary64) : Option Binary64 := nearest? x.units y.units

end Binary64

end SchemaTypes
