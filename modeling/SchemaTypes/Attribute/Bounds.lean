/-
  Lower and upper bounds of numbers and lengths.

  Joining bounds admits what either admits: a side without a bound leaves none.  Meeting
  them admits what both admit: a side without a bound leaves the other's.
-/
import SchemaTypes.Double

namespace SchemaTypes

/-- Bounds, each of which may be missing. -/
structure Bounds where
  min : Option Double
  max : Option Double
  deriving DecidableEq

namespace Bounds

/-- Numeric equality.  Bounds with one that is not a number differ from themselves. -/
instance : BEq Bounds := ⟨fun a b => a.min == b.min && a.max == b.max⟩

/-- Both values combined, if both are there. -/
def both (f : Double → Double → Double) : Option Double → Option Double → Option Double
  | some a, some b => some (f a b)
  | _, _ => none

/-- Both values combined, or the one that is there. -/
def either (f : Double → Double → Double) :
    Option Double → Option Double → Option Double
  | some a, some b => some (f a b)
  | some a, none => some a
  | none, b => b

/-- Bounds of what either admits. -/
def join (a b : Bounds) : Bounds := ⟨both .min a.min b.min, both .max a.max b.max⟩

/-- Bounds of what both admit. -/
def meet (a b : Bounds) : Bounds := ⟨either .max a.min b.min, either .min a.max b.max⟩

end Bounds

end SchemaTypes
