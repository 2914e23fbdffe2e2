import QosControl.Binary64.Basic
import QosControl.Text.Numeral

/-! # Shortest decimal numerals of doubles

A finite double is written with the fewest digits that read back as the same
double; of several such numerals the nearest is taken, and the even one of two
equally near. Candidates are the two neighbours of the value on the grid of each
digit count in turn.
-/
namespace QosControl.Binary64
open Text

/-- A decimal significand, with the power of ten of its last digit. -/
structure Decimal where
  digits : Nat
  exponent : Int
deriving DecidableEq, Repr

/-- The values that round to a double, as numerators over one denominator. -/
structure RoundingInterval where
  low : Nat
  value : Nat
  high : Nat
  closed : Bool
  denominator : Nat

/-- The interval of a finite positive magnitude. Its ends belong to it exactly
when the significand is even; below a power of two the gap is half as wide. -/
def roundingInterval (x : Binary64) : RoundingInterval :=
  let step := twoTo x.scale
  let below := if x.magnitude % twoTo 52 = 0 ∧ 2 ≤ x.magnitude / twoTo 52 then step else 2 * step
  ⟨4 * x.units - below, 4 * x.units, 4 * x.units + 2 * step, x.magnitude % 2 = 0, 4 * unitsPerOne⟩

namespace RoundingInterval

def fraction (d : Decimal) : Nat × Nat :=
  if 0 ≤ d.exponent then (d.digits * tenTo d.exponent.toNat, 1)
  else (d.digits, tenTo (-d.exponent).toNat)

def contains (i : RoundingInterval) (d : Decimal) : Bool :=
  let (num, den) := fraction d
  let scaled := num * i.denominator
  if i.closed then i.low * den ≤ scaled && scaled ≤ i.high * den
  else i.low * den < scaled && scaled < i.high * den

def floorOn (i : RoundingInterval) (exponent : Int) : Decimal :=
  if 0 ≤ exponent then ⟨i.value / (i.denominator * tenTo exponent.toNat), exponent⟩
  else ⟨i.value * tenTo (-exponent).toNat / i.denominator, exponent⟩

/-- Twice the value less the sum of the two neighbours, which is negative when the
lower neighbour is nearer. -/
def tilt (i : RoundingInterval) (d : Decimal) : Int :=
  let (num, den) := fraction ⟨2 * d.digits + 1, d.exponent⟩
  2 * (i.value * den : Nat) - (num * i.denominator : Nat)

/-- The neighbour of the value on a grid that reads back, the nearer of two. -/
def nearestOn (i : RoundingInterval) (exponent : Int) : Option Decimal :=
  let lower := i.floorOn exponent
  let upper : Decimal := ⟨lower.digits + 1, exponent⟩
  match i.contains lower, i.contains upper with
  | false, false => none
  | true, false => some lower
  | false, true => some upper
  | true, true =>
    if i.tilt lower < 0 then some lower
    else if 0 < i.tilt lower then some upper
    else if lower.digits % 2 = 0 then some lower else some upper

end RoundingInterval

/-- The position of the leading digit: the count of digits before the point, or
zero less the count of zeros after it. -/
def leadingPosition (num den : Nat) : Int :=
  if den ≤ num then (Nat.toDigits 10 (num / den)).length
  else 1 - ((List.range 330).find? fun j => den ≤ num * tenTo j).getD 330

def shortest (x : Binary64) : Decimal :=
  let i := x.roundingInterval
  let lead := leadingPosition i.value i.denominator
  ((List.range 17).findSome? fun n => i.nearestOn (lead - ((n + 1 : Nat) : Int))).getD ⟨0, 0⟩

def Decimal.trimmed (d : Decimal) : Decimal :=
  if d.digits = 0 then d
  else if d.digits % 10 = 0 then trimmed ⟨d.digits / 10, d.exponent + 1⟩ else d
termination_by d.digits
decreasing_by show d.digits / 10 < d.digits; omega

/-- Where positional notation ends: a number is written positionally when its
leading digit stands at most `whole` places before the point and fewer than
`zeros` zeros follow the point. -/
structure Layout where
  whole : Nat
  zeros : Nat

def layout : Layout := ⟨16, 5⟩

/-- Writes a decimal: positionally with at least one digit on either side of the
point, or with one digit before the point and an exponent with its sign. -/
def Decimal.text (d : Decimal) : List Char :=
  let ds := Nat.toDigits 10 d.digits
  let lead := ds.length + d.exponent
  if 0 ≤ d.exponent ∧ lead ≤ layout.whole then
    ds ++ List.replicate d.exponent.toNat '0' ++ ['.', '0']
  else if 0 < lead ∧ lead ≤ layout.whole then
    ds.take lead.toNat ++ '.' :: ds.drop lead.toNat
  else if lead ≤ 0 ∧ -lead < layout.zeros then
    '0' :: '.' :: List.replicate (-lead).toNat '0' ++ ds
  else
    let exponent := lead - 1
    let mark := if exponent < 0 then ['e', '-'] else ['e', '+']
    let point := if ds.length = 1 then ds else ds.take 1 ++ '.' :: ds.drop 1
    point ++ mark ++ Nat.toDigits 10 exponent.natAbs

def text (x : Binary64) : List Char :=
  let unsigned := if x.units = 0 then ['0', '.', '0'] else x.shortest.trimmed.text
  if x.isNegative then '-' :: unsigned else unsigned

end QosControl.Binary64
