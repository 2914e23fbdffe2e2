import QosControl.Power

/-! # Binary64 numbers

Double precision numbers as bit patterns, with exact rounding to nearest, ties
to even. A finite magnitude is a natural number of units, the unit being the
smallest positive double. Rounding a quotient of naturals is the one place where
precision is lost; products and quotients of doubles are rounded exact values.
-/
namespace QosControl

/-- A double precision number, given by its bit pattern. -/
structure Binary64 where
  bits : UInt64
deriving DecidableEq, Repr

namespace Binary64

def signBit : Nat := twoTo 63

def infiniteBits : Nat := 2047 * twoTo 52

/-- The number of units in one. -/
def unitsPerOne : Nat := twoTo 1074

def ofBits (n : Nat) : Binary64 := ⟨UInt64.ofNat n⟩

def zero : Binary64 := ofBits 0

def infinity : Binary64 := ofBits infiniteBits

def nan : Binary64 := ofBits (infiniteBits + twoTo 51)

def isNegative (x : Binary64) : Bool := signBit ≤ x.bits.toNat

/-- The pattern without its sign. -/
def magnitude (x : Binary64) : Nat := x.bits.toNat % signBit

def isNan (x : Binary64) : Bool := infiniteBits < x.magnitude

def isInfinite (x : Binary64) : Bool := x.magnitude == infiniteBits

/-- The power of two that one step of the significand counts, in units. -/
def scale (x : Binary64) : Nat := x.magnitude / twoTo 52 - 1

def significand (x : Binary64) : Nat :=
  if x.magnitude < twoTo 52 then x.magnitude else twoTo 52 + x.magnitude % twoTo 52

/-- A finite magnitude in units. -/
def units (x : Binary64) : Nat := x.significand * twoTo x.scale

def negate (x : Binary64) : Binary64 :=
  ofBits (if x.isNegative then x.magnitude else x.magnitude + signBit)

/-- The quotient rounded to the nearest natural number, a tie to the even one. -/
def roundQuotient (num den : Nat) : Nat :=
  let q := num / den
  let r := num % den
  if 2 * r < den then q else if den < 2 * r then q + 1 else q + q % 2

/-- The least scale at which `n` units have a significand of at most 53 bits. -/
def scaleFor (n : Nat) : Nat := n.log2 - 52

/-- The double nearest to the quotient of two natural numbers, the second positive.
A significand that rounds up to 2 ^ 53 carries into the exponent by itself. -/
def ofQuotient (num den : Nat) : Binary64 :=
  let s := scaleFor (num * unitsPerOne / den)
  ofBits (min (s * twoTo 52 + roundQuotient (num * unitsPerOne) (den * twoTo s)) infiniteBits)

def ofNat (n : Nat) : Binary64 := ofQuotient n 1

/-- The product of two numbers that are not negative. -/
def mul (x y : Binary64) : Binary64 :=
  if x.isNan || y.isNan then nan
  else if x.isInfinite then if y.units = 0 then nan else infinity
  else if y.isInfinite then if x.units = 0 then nan else infinity
  else ofQuotient (x.units * y.units) (unitsPerOne * unitsPerOne)

/-- The quotient of a number that is not negative by one that is positive and finite. -/
def div (x y : Binary64) : Binary64 :=
  if x.isNan then nan
  else if x.isInfinite then infinity
  else ofQuotient x.units y.units

/-- The integer part as a machine word: too large a number becomes the largest
word, and a number that is none becomes zero. -/
def toWord (x : Binary64) : Nat :=
  if x.isNan then 0
  else if x.isInfinite then twoTo 64 - 1
  else min (x.units / unitsPerOne) (twoTo 64 - 1)

end Binary64
end QosControl
