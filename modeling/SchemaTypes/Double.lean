/-
  Double-precision numbers: the finite ones, the infinities, and what is not a number.

  A document has finite numbers alone, bounds may be any doubles.  They are compared by
  their places in the order of numbers (`key?`).  What is not a number has no place: it is
  neither below nor above anything, and equals nothing, not even itself.
-/
import SchemaTypes.Binary64

namespace SchemaTypes

/-- A double-precision number. -/
inductive Double where
  | finite (x : Binary64)
  | infinite (negative : Bool)
  | nan
  deriving DecidableEq

namespace Double

/-- The place of a number in the order of numbers.  The infinities come next to the
    largest finite numbers. -/
def key? : Double → Option Int
  | finite x => some x.key
  | infinite negative => some (if negative then -Binary64.rankLimit else Binary64.rankLimit)
  | nan => none

/-- Numeric equality: the two zeros are equal, and what is not a number equals nothing. -/
def equal (x y : Double) : Bool :=
  match x.key?, y.key? with
  | some k, some l => k == l
  | _, _ => false

instance : BEq Double := ⟨equal⟩

/-- Whether one number is below another. -/
def below (x y : Double) : Bool :=
  match x.key?, y.key? with
  | some k, some l => k < l
  | _, _ => false

/-- The smaller number, the first of two equal ones.  What is not a number gives way. -/
def min (x y : Double) : Double := if x = nan || y.below x then y else x

/-- The larger number, the first of two equal ones.  What is not a number gives way. -/
def max (x y : Double) : Double := if x = nan || x.below y then y else x

end Double

end SchemaTypes
