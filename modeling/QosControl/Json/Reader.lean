import QosControl.Json.Tree
import QosControl.Json.Value

/-! # Reading JSON

Values of syntax trees. An integer that fits a machine word stays an integer; any
other numeral becomes a double, from as many leading digits as fit a word and a
power of ten. Escaped surrogates must come in pairs, containers nest less than 128
deep, and the last of several members with one key counts.
-/
namespace QosControl.Json
open Text

def isSurrogate (n : Nat) : Bool := 0xd800 ≤ n && n < 0xe000

/-- The characters of a string, or none when a surrogate stands alone. -/
def decodeString : List StringUnit → Option (List Char)
  | [] => some []
  | .char c :: us => (decodeString us).map (c :: ·)
  | [.codeUnit n] => if isSurrogate n then none else some [Char.ofNat n]
  | .codeUnit n :: .codeUnit m :: us =>
    if n < 0xd800 ∨ 0xe000 ≤ n then (decodeString (.codeUnit m :: us)).map (Char.ofNat n :: ·)
    else if n < 0xdc00 ∧ 0xdc00 ≤ m ∧ m < 0xe000 then
      (decodeString us).map (Char.ofNat (0x10000 + (n - 0xd800) * 1024 + (m - 0xdc00)) :: ·)
    else none
  | .codeUnit n :: us => if isSurrogate n then none else (decodeString us).map (Char.ofNat n :: ·)

def stringOf? (us : List StringUnit) : Option String := (decodeString us).map String.ofList

/-- The value of the leading digits that fit a word, and the count of digits left over. -/
def wordDigits : Nat → List Char → Nat × Nat
  | n, [] => (n, 0)
  | n, c :: cs =>
    let m := Nat.ofDigitChars 10 [c] n
    if m ≤ wordMax 64 then wordDigits m cs
    else (n, cs.length + 1)

def maxDecimalExponent : Nat := 308

def powerOfTen (n : Nat) : Binary64 := Binary64.ofNat (tenTo n)

/-- Divides by a power of ten, in steps of the largest one. -/
def divPowerOfTen (x : Binary64) (n : Nat) : Binary64 :=
  if n ≤ maxDecimalExponent then x.div (powerOfTen n)
  else if x = Binary64.zero then x
  else divPowerOfTen (x.div (powerOfTen maxDecimalExponent)) (n - maxDecimalExponent)
termination_by n
decreasing_by unfold maxDecimalExponent at *; omega

def scaled? (significand : Nat) (exponent : Int) : Option Binary64 :=
  let x := Binary64.ofNat significand
  if exponent < 0 then some (divPowerOfTen x exponent.natAbs)
  else if maxDecimalExponent < exponent.natAbs then
    if significand = 0 then some x else none
  else
    let y := x.mul (powerOfTen exponent.natAbs)
    if y.isInfinite then none else some y

namespace Numeral

/-- The significand and the power of ten that a numeral denotes before its exponent
is applied. Digits that do not fit a word are dropped. -/
def parts (n : Numeral) : Nat × Int :=
  let (whole, dropped) := wordDigits 0 n.whole
  let (significand, cut) := wordDigits whole n.fraction
  (significand, (dropped : Int) - ((n.fraction.length - cut : Nat) : Int))

/-- Exponents are counted in words of 32 bits with a sign. -/
def maxExponent : Nat := twoTo 31 - 1

def double? (n : Numeral) : Option Binary64 :=
  let (significand, exponent) := n.parts
  let shift := digitsValue n.exponent
  if maxExponent < shift then
    if significand ≠ 0 ∧ ¬ n.exponentNegative then none else some Binary64.zero
  else
    let total := if n.exponentNegative then max (exponent - shift) (-(maxExponent : Int) - 1)
      else min (exponent + shift) maxExponent
    scaled? significand total

def signed (n : Numeral) (x : Binary64) : Number := .double (if n.negative then x.negate else x)

/-- The number of a numeral; none when it is out of the range of doubles. -/
def number? (n : Numeral) : Option Number :=
  let value := digitsValue n.whole
  if n.fractional ∨ wordMax 64 < value then n.double?.map n.signed
  else if ¬ n.negative then some (.natural (UInt64.ofNat value))
  else if value = 0 ∨ twoTo 63 < value then some (n.signed (Binary64.ofNat value))
  else some (.negative (value - 1))

end Numeral

def maxDepth : Nat := 128

namespace Tree

mutual

/-- The value of a tree whose containers nest less than `depth` deep. -/
def value? (depth : Nat) : Tree → Option Value
  | .null => some .null
  | .bool b => some (.bool b)
  | .numeral n => n.number?.map .number
  | .string us => (stringOf? us).map .string
  | .array items => if depth ≤ 1 then none else (values? (depth - 1) items).map .array
  | .object members => if depth ≤ 1 then none else (fields? (depth - 1) members).map Value.ofFields

def values? (depth : Nat) : List Tree → Option (List Value)
  | [] => some []
  | t :: ts => do
    let v ← t.value? depth
    return v :: (← values? depth ts)

def fields? (depth : Nat) : List (List StringUnit × Tree) → Option (List (String × Value))
  | [] => some []
  | (key, t) :: ms => do
    let k ← stringOf? key
    let v ← t.value? depth
    return (k, v) :: (← fields? depth ms)

end

end Tree

/-- The value of a text, or none when the text is malformed. -/
def Value.ofText? (text : String) : Option Value := do (← Tree.ofText? text).value? maxDepth

end QosControl.Json
