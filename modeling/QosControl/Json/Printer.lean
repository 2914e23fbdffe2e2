import QosControl.Json.Value

/-! # Writing JSON

Texts of values, on one line or indented. Quotes, backslashes and control
characters of strings are escaped, all else is written as it is.
-/
namespace QosControl.Json
open Text

def escapeChar (c : Char) : List Char :=
  match c with
  | '"' => ['\\', '"']
  | '\\' => ['\\', '\\']
  | '\n' => ['\\', 'n']
  | '\r' => ['\\', 'r']
  | '\t' => ['\\', 't']
  | '\x08' => ['\\', 'b']
  | '\x0c' => ['\\', 'f']
  | _ =>
    if c.toNat < 32 then
      ['\\', 'u', '0', '0', Nat.digitChar (c.toNat / 16), Nat.digitChar (c.toNat % 16)]
    else [c]

def quote (s : String) : String := String.ofList ('"' :: s.toList.flatMap escapeChar ++ ['"'])

def openBrace : String := "\x7b"

def closeBrace : String := "\x7d"

namespace Value

mutual

/-- The text on one line, without spaces. -/
def text : Value → String
  | .null => "null"
  | .bool b => if b then "true" else "false"
  | .number n => n.text
  | .string s => quote s
  | .array items => "[" ++ String.intercalate "," (texts items) ++ "]"
  | .object fields => openBrace ++ String.intercalate "," (fieldTexts fields) ++ closeBrace

def texts : List Value → List String
  | [] => []
  | v :: vs => v.text :: texts vs

def fieldTexts : List (String × Value) → List String
  | [] => []
  | (k, v) :: fs => (quote k ++ ":" ++ v.text) :: fieldTexts fs

end

def newline (depth : Nat) : String := "\n" ++ String.ofList (List.replicate (2 * depth) ' ')

/-- Lines between brackets, indented one step deeper than the brackets. -/
def block (depth : Nat) (opening closing : String) (lines : List String) : String :=
  if lines.isEmpty then opening ++ closing
  else opening ++ newline (depth + 1) ++ String.intercalate ("," ++ newline (depth + 1)) lines ++
    newline depth ++ closing

mutual

/-- The text with every item on a line of its own, indented by two spaces a level. -/
def pretty (depth : Nat) : Value → String
  | .array items => block depth "[" "]" (prettyItems (depth + 1) items)
  | .object fields => block depth openBrace closeBrace (prettyFields (depth + 1) fields)
  | .null => "null"
  | .bool b => if b then "true" else "false"
  | .number n => n.text
  | .string s => quote s

def prettyItems (depth : Nat) : List Value → List String
  | [] => []
  | v :: vs => pretty depth v :: prettyItems depth vs

def prettyFields (depth : Nat) : List (String × Value) → List String
  | [] => []
  | (k, v) :: fs => (quote k ++ ": " ++ pretty depth v) :: prettyFields depth fs

end

end Value
end QosControl.Json
