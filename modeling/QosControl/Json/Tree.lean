import QosControl.Text.Numeral

/-! # JSON syntax trees

The grammar of JSON texts. A tree keeps numerals and strings as they are spelled
and the members of an object in order, duplicates included, so that a reader
decides what it makes of them.
-/
namespace QosControl.Json
open Text

/-- A character of a string, or the code unit of a hexadecimal escape. -/
inductive StringUnit where
  | char (c : Char)
  | codeUnit (n : Nat)
deriving DecidableEq, Repr

structure Numeral where
  negative : Bool
  whole : List Char
  fraction : List Char
  /-- Whether there is a fraction or an exponent, however it reads. -/
  fractional : Bool
  exponentNegative : Bool
  exponent : List Char
deriving DecidableEq, Repr

inductive Tree where
  | null
  | bool (b : Bool)
  | numeral (n : Numeral)
  | string (units : List StringUnit)
  | array (items : List Tree)
  | object (members : List (List StringUnit × Tree))

def isSpace (c : Char) : Bool := c == ' ' || c == '\t' || c == '\n' || c == '\r'

def skipSpace (cs : List Char) : List Char := cs.dropWhile isSpace

def hexValue? (c : Char) : Option Nat :=
  if c.isDigit then some (c.toNat - 48)
  else if 97 ≤ c.toNat ∧ c.toNat ≤ 102 then some (c.toNat - 87)
  else if 65 ≤ c.toNat ∧ c.toNat ≤ 70 then some (c.toNat - 55)
  else none

def codeUnit? (a b c d : Char) : Option Nat := do
  return 4096 * (← hexValue? a) + 256 * (← hexValue? b) + 16 * (← hexValue? c) + (← hexValue? d)

def escaped? : Char → Option Char
  | '"' => some '"'
  | '\\' => some '\\'
  | '/' => some '/'
  | 'b' => some '\x08'
  | 'f' => some '\x0c'
  | 'n' => some '\n'
  | 'r' => some '\r'
  | 't' => some '\t'
  | _ => none

def readString : List Char → Option (List StringUnit × List Char)
  | [] => none
  | '"' :: cs => some ([], cs)
  | '\\' :: 'u' :: a :: b :: c :: d :: cs => do
    let n ← codeUnit? a b c d
    let (us, rest) ← readString cs
    return (.codeUnit n :: us, rest)
  | '\\' :: e :: cs => do
    let c ← escaped? e
    let (us, rest) ← readString cs
    return (.char c :: us, rest)
  | c :: cs =>
    if c.toNat < 32 then none
    else do
      let (us, rest) ← readString cs
      return (.char c :: us, rest)

def spanDigits (cs : List Char) : List Char × List Char := (cs.takeWhile Char.isDigit, cs.dropWhile Char.isDigit)

/-- The fraction after a numeral's whole part, if a point follows. -/
def readFraction : List Char → Option (List Char × List Char)
  | '.' :: cs => if (spanDigits cs).1 = [] then none else some (spanDigits cs)
  | cs => some ([], cs)

/-- The sign and the digits of an exponent, if its mark follows. -/
def readExponent : List Char → Option (Bool × List Char × List Char)
  | [] => some (false, [], [])
  | c :: cs =>
    if c = 'e' ∨ c = 'E' then
      let (negative, cs) := match cs with
        | '-' :: r => (true, r)
        | '+' :: r => (false, r)
        | r => (false, r)
      if (spanDigits cs).1 = [] then none else some (negative, spanDigits cs)
    else some (false, [], c :: cs)

/-- Reads a numeral. A whole part of several digits does not begin with zero. -/
def readNumeral (cs : List Char) : Option (Numeral × List Char) := do
  let (negative, cs) := match cs with
    | '-' :: r => (true, r)
    | r => (false, r)
  let (whole, cs) := spanDigits cs
  if whole = [] ∨ (whole.head? = some '0' ∧ 1 < whole.length) then none
  let (fraction, cs) ← readFraction cs
  let (exponentNegative, exponent, rest) ← readExponent cs
  return (⟨negative, whole, fraction, fraction ≠ [] ∨ exponent ≠ [], exponentNegative, exponent⟩, rest)

mutual

/-- Reads one value; `fuel` bounds the values and list positions visited. -/
def readTree : Nat → List Char → Option (Tree × List Char)
  | 0, _ => none
  | fuel + 1, cs =>
    match skipSpace cs with
    | 'n' :: 'u' :: 'l' :: 'l' :: rest => some (.null, rest)
    | 't' :: 'r' :: 'u' :: 'e' :: rest => some (.bool true, rest)
    | 'f' :: 'a' :: 'l' :: 's' :: 'e' :: rest => some (.bool false, rest)
    | '"' :: rest => (readString rest).map fun (us, rest) => (.string us, rest)
    | '[' :: rest =>
      match skipSpace rest with
      | ']' :: rest => some (.array [], rest)
      | rest => (readItems fuel rest).map fun (ts, rest) => (.array ts, rest)
    | '\x7b' :: rest =>
      match skipSpace rest with
      | '\x7d' :: rest => some (.object [], rest)
      | rest => (readMembers fuel rest).map fun (ms, rest) => (.object ms, rest)
    | rest => (readNumeral rest).map fun (n, rest) => (.numeral n, rest)

def readItems : Nat → List Char → Option (List Tree × List Char)
  | 0, _ => none
  | fuel + 1, cs => do
    let (t, rest) ← readTree fuel cs
    match skipSpace rest with
    | ']' :: rest => return ([t], rest)
    | ',' :: rest =>
      let (ts, rest) ← readItems fuel rest
      return (t :: ts, rest)
    | _ => none

def readMembers : Nat → List Char → Option (List (List StringUnit × Tree) × List Char)
  | 0, _ => none
  | fuel + 1, cs =>
    match skipSpace cs with
    | '"' :: rest => do
      let (key, rest) ← readString rest
      match skipSpace rest with
      | ':' :: rest =>
        let (t, rest) ← readTree fuel rest
        match skipSpace rest with
        | '\x7d' :: rest => return ([(key, t)], rest)
        | ',' :: rest =>
          let (ms, rest) ← readMembers fuel rest
          return ((key, t) :: ms, rest)
        | _ => none
      | _ => none
    | _ => none

end

/-- The tree of a whole text. Every value and every list position takes a character,
so twice the length of the text is fuel enough. -/
def Tree.ofText? (text : String) : Option Tree :=
  let cs := text.toList
  match readTree (2 * cs.length + 1) cs with
  | some (t, rest) => if skipSpace rest = [] then some t else none
  | none => none

end QosControl.Json
