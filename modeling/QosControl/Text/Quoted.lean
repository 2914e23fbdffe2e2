import QosControl.Text.Hidden
import QosControl.Text.Numeral

/-! # Quoted texts

The form in which a list of texts appears inside a message: each text between
double quotes, the texts separated by commas, the list in square brackets. A
quote, a backslash and the usual control characters are escaped by a backslash, and
other hidden characters by their code points.
-/
namespace QosControl.Text

/-- Braced hexadecimal escape of a code point. -/
def codePointEscape (c : Char) : List Char :=
  '\\' :: 'u' :: '\x7b' :: Nat.toDigits 16 c.toNat ++ ['\x7d']

def quoteChar (c : Char) : List Char :=
  match c with
  | '"' => ['\\', '"']
  | '\\' => ['\\', '\\']
  | '\t' => ['\\', 't']
  | '\n' => ['\\', 'n']
  | '\r' => ['\\', 'r']
  | '\x00' => ['\\', '0']
  | _ => if isHidden c then codePointEscape c else [c]

def quoted (s : String) : String :=
  String.ofList ('"' :: s.toList.flatMap quoteChar ++ ['"'])

def quotedList (texts : List String) : String :=
  "[" ++ String.intercalate ", " (texts.map quoted) ++ "]"

end QosControl.Text
