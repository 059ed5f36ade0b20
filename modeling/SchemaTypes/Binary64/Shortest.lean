/-
  The shortest decimal that reads back as a given double.

  The reals that round to a double form an interval; its ends belong to it
  exactly if the rank is even.  `shortest` looks for the smallest number of
  digits for which some decimal of that many digits lies in the interval, and of
  two such decimals takes the one nearer to the double.  `Binary64.text` writes
  it: positionally from `10^-5` up to `10^16`, always with a point, else with an
  exponent.
-/
import SchemaTypes.Binary64

namespace SchemaTypes
namespace Binary64

/-- The decimal number `digits * 10 ^ exponent`. -/
structure Decimal where
  digits : Nat
  exponent : Int
  deriving DecidableEq, Repr

/-- The absolute value of a double and the interval of reals that round to it, in
    half units of `2^-1074`. -/
structure Interval where
  low : Nat
  value : Nat
  high : Nat
  /-- Whether the ends belong to the interval. -/
  closed : Bool

/-- The interval of the double of rank `r > 0`. -/
def intervalOfRank (r : Nat) : Interval where
  low := unitsOfRank (r - 1) + unitsOfRank r
  value := 2 * unitsOfRank r
  high := unitsOfRank r + unitsOfRank (r + 1)
  closed := r % 2 == 0

/-- Whether `num / den` lies in the interval. -/
def Interval.contains (i : Interval) (num den : Nat) : Bool :=
  if i.closed then decide (i.low * den ≤ num ∧ num ≤ i.high * den)
  else decide (i.low * den < num ∧ num < i.high * den)

/-- The power of ten as a quotient. -/
def powerOfTen (e : Int) : Nat × Nat :=
  if 0 ≤ e then (Nat.pow 10 e.toNat, 1) else (1, Nat.pow 10 (-e).toNat)

/-- The decimal with unit `10 ^ e` nearest to the double, if one lies in the
    interval.  One half unit is `2^-1075`. -/
def onGrid? (i : Interval) (e : Int) : Option Decimal :=
  -- `10 ^ e` is `step / den` half units
  let step := (powerOfTen e).1 <<< 1075
  let den := (powerOfTen e).2
  let below := i.value * den / step
  let inside (n : Nat) : Bool := i.contains (n * step) den
  let below? := inside below
  let above? := inside (below + 1)
  let distBelow := i.value * den - below * step
  let distAbove := (below + 1) * step - i.value * den
  let pick (n : Nat) : Option Decimal := some ⟨n, e⟩
  if below? && above? then
    if distBelow < distAbove then pick below
    else if distAbove < distBelow then pick (below + 1)
    else if below % 2 == 0 then pick below else pick (below + 1)
  else if below? then pick below
  else if above? then pick (below + 1)
  else none

/-- The exponent of ten of the first digit: `10 ^ e ≤ value < 10 ^ (e + 1)`,
    searched upwards from the least one any double has. -/
def leadingExponent (value : Nat) : Int :=
  let reaches (e : Int) : Bool :=
    let (tenNum, tenDen) := powerOfTen e
    decide (tenNum <<< 1075 ≤ value * tenDen)
  -- a first guess from the number of bits, never above the exponent
  let bits : Int := Nat.log2 value
  let guess := (bits - 1075) * 30103 / 100000 - 2
  let rec up : Nat → Int → Int
    | 0, e => e
    | n + 1, e => if reaches (e + 1) then up n (e + 1) else e
  up 6 guess

/-- The first grid with a hit, going from one digit to seventeen. -/
def firstHit (i : Interval) (lead : Int) : List Nat → Option Decimal
  | [] => none
  | n :: ns => (onGrid? i (lead - n)).orElse fun _ => firstHit i lead ns

/-- Drops zeros at the end of the digits. -/
def stripZeros : Nat → Decimal → Decimal
  | 0, d => d
  | n + 1, d =>
    if d.digits % 10 == 0 ∧ d.digits ≠ 0 then stripZeros n ⟨d.digits / 10, d.exponent + 1⟩ else d

/-- The shortest decimal that reads back as the absolute value of `x`. -/
def shortest (x : Binary64) : Decimal :=
  if x.rank = 0 then ⟨0, 0⟩
  else
    let i := intervalOfRank x.rank
    let lead := leadingExponent i.value
    stripZeros 20 ((firstHit i lead (List.range 18)).getD ⟨0, 0⟩)

/-! ## Text -/

/-- Writes digits and an exponent: a decimal point always, positional notation for
    first digits from `10^-5` to `10^15`, else scientific with a signed exponent. -/
def Decimal.text (d : Decimal) : String :=
  let ds := toString d.digits
  let lead : Int := d.exponent + ds.length - 1
  if -5 ≤ lead ∧ lead < 16 then
    if 0 ≤ d.exponent then
      ds ++ String.ofList (List.replicate d.exponent.toNat '0') ++ ".0"
    else if 0 ≤ lead then
      let cut := (lead + 1).toNat
      String.ofList (ds.toList.take cut) ++ "." ++ String.ofList (ds.toList.drop cut)
    else
      "0." ++ String.ofList (List.replicate (-lead - 1).toNat '0') ++ ds
  else
    let mantissa := match ds.toList with
      | [c] => String.singleton c
      | c :: rest => String.singleton c ++ "." ++ String.ofList rest
      | [] => ""
    mantissa ++ "e" ++ (if 0 ≤ lead then "+" else "-") ++ toString lead.natAbs

/-- The text of a double. -/
def text (x : Binary64) : String :=
  (if x.negative then "-" else "") ++ x.shortest.text

end Binary64
end SchemaTypes
