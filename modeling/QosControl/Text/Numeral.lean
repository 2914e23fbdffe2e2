import QosControl.Power

/-! # Numerals

Decimal and hexadecimal numerals of natural numbers. Writing gives the digits
without leading zeros. Reading accepts an optional plus sign and at least one
ASCII digit, and refuses a value above the bound of the word it is read for.
-/
namespace QosControl.Text

def decimal (n : Nat) : String := String.ofList (Nat.toDigits 10 n)

/-- The hexadecimal numeral of a natural number, marked by a leading 0x. -/
def hexadecimal (n : Nat) : String := String.ofList ('0' :: 'x' :: Nat.toDigits 16 n)

def digitsValue (cs : List Char) : Nat := Nat.ofDigitChars 10 cs 0

def dropPlus : List Char → List Char
  | '+' :: cs => cs
  | cs => cs

/-- Reads a decimal numeral whose value is at most `bound`. -/
def readUpTo (bound : Nat) (cs : List Char) : Option Nat :=
  let ds := dropPlus cs
  if ds ≠ [] ∧ ds.all Char.isDigit ∧ digitsValue ds ≤ bound then some (digitsValue ds) else none

/-- The largest value of a machine word of the given width. -/
def wordMax (width : Nat) : Nat := twoTo width - 1

def readByte (cs : List Char) : Option Nat := readUpTo (wordMax 8) cs

def readWord (cs : List Char) : Option Nat := readUpTo (wordMax 64) cs

theorem dropPlus_toDigits (n : Nat) : dropPlus (Nat.toDigits 10 n) = Nat.toDigits 10 n := by
  cases h : Nat.toDigits 10 n with
  | nil => rfl
  | cons c cs =>
    have hc : c.isDigit := Nat.isDigit_of_mem_toDigits (by decide) (by decide) (h ▸ List.mem_cons_self)
    unfold dropPlus
    split
    · next heq => cases heq; exact absurd hc (by decide)
    · rfl

/-- What is written for a number that fits is read as that number. -/
theorem readUpTo_toDigits {bound n : Nat} (h : n ≤ bound) :
    readUpTo bound (Nat.toDigits 10 n) = some n := by
  have hd : (Nat.toDigits 10 n).all Char.isDigit :=
    List.all_eq_true.2 fun _ hc => Nat.isDigit_of_mem_toDigits (by decide) (by decide) hc
  simp only [readUpTo, dropPlus_toDigits, digitsValue, Nat.ofDigitChars_ten_toDigits]
  exact if_pos ⟨Nat.toDigits_ne_nil, hd, h⟩

end QosControl.Text
