import QosControl.Binary64.Basic
import QosControl.Text.Blank
import QosControl.Text.Caseless
import QosControl.Text.Numeral

/-! # Rate texts

The grammars of bandwidths, percentages and packet rates. Each is a number, white
space where it may stand, and a suffix whose letters are compared under simple case
folding. The meaning of a suffix is looked up after lowering ASCII letters alone,
so a suffix spelled with a folded letter outside ASCII has no scale of its own.
-/
namespace QosControl.Rate
open Text

structure Amount where
  whole : List Char
  fraction : List Char
deriving DecidableEq, Repr

namespace Amount

def value (a : Amount) : Binary64 :=
  .ofQuotient (digitsValue (a.whole ++ a.fraction)) (tenTo a.fraction.length)

/-- The number at the head of a text and what follows it. A point counts only when
a digit follows. -/
def read? (cs : List Char) : Option (Amount × List Char) :=
  let whole := cs.takeWhile Char.isDigit
  let rest := cs.dropWhile Char.isDigit
  if whole = [] then none
  else match rest with
    | '.' :: r =>
      if r.takeWhile Char.isDigit = [] then some (⟨whole, []⟩, rest)
      else some (⟨whole, r.takeWhile Char.isDigit⟩, r.dropWhile Char.isDigit)
    | _ => some (⟨whole, []⟩, rest)

/-- A number and the suffix after it, both without surrounding white space. -/
def readWithSuffix? (s : String) : Option (Amount × List Char) :=
  (read? (trim s.toList)).map fun (a, rest) => (a, trimLeft rest)

end Amount

def multipliers : List (String × Nat) :=
  [("k", tenTo 3), ("m", tenTo 6), ("g", tenTo 9), ("t", tenTo 12),
   ("ki", twoTo 10), ("mi", twoTo 20), ("gi", twoTo 30), ("ti", twoTo 40)]

def units : List String := ["bit", "bps"]

/-- The optional keywords of two lists, one after the other. -/
def suffixes (first second : List String) : List (List Char × List Char) :=
  ("" :: first).flatMap fun a => ("" :: second).map fun b => (a.toList, b.toList)

/-- Splits a suffix into the two keywords it spells, as it spells them. -/
def splitSuffix? (table : List (List Char × List Char)) (cs : List Char) :
    Option (List Char × List Char) :=
  (table.find? fun p => p.1 ++ p.2 = fold cs).map fun p => (cs.take p.1.length, cs.drop p.1.length)

def bandwidthSuffixes : List (List Char × List Char) := suffixes (multipliers.map (·.1)) units

def scaleOf (multiplier : List Char) : Binary64 :=
  .ofNat (((multipliers.find? fun m => m.1.toList = lowerAscii multiplier).map (·.2)).getD 1)

/-- A bandwidth in bytes per second. A bare number counts thousands of bits; a
multiplier without a unit counts bits. -/
def bandwidth? (s : String) : Option Nat := do
  let (amount, rest) ← Amount.readWithSuffix? s
  let (multiplier, unit) ← splitSuffix? bandwidthSuffixes rest
  let n := amount.value
  let bytes :=
    if multiplier = [] ∧ unit = [] then (n.mul (.ofNat 1000)).div (.ofNat 8)
    else if lowerAscii unit = "bps".toList then n.mul (scaleOf multiplier)
    else (n.mul (scaleOf multiplier)).div (.ofNat 8)
  return bytes.toWord

def percent? (s : String) : Option Binary64 := do
  let (amount, rest) ← Amount.readWithSuffix? s
  if rest = ['%'] then some amount.value else none

/-- A packet rate suffix: the unit, with an optional multiplier, or nothing. -/
def packetSuffixes : List (List Char × List Char) :=
  ([], []) :: ["", "k", "m"].map fun m => (m.toList, "pps".toList)

/-- A packet rate in packets per second. -/
def packets? (s : String) : Option Nat := do
  let (amount, rest) ← Amount.readWithSuffix? s
  let (multiplier, _) ← splitSuffix? packetSuffixes rest
  return (amount.value.mul (scaleOf multiplier)).toWord

end QosControl.Rate
