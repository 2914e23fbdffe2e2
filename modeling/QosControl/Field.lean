import QosControl.Fault
import QosControl.Json.Value
import QosControl.Text.Blank

/-! # Fields of a configuration node

Lenient reading of fields. A quantity is an integer or a text that spells one, a
leaf without a value is present as a list, and a field of an unusable kind counts
as absent. Only a required field that cannot be read is a fault.
-/
namespace QosControl.Json.Value
open Text

/-- A field that is a text; numbers are not converted. -/
def string? (v : Value) (key : String) : Option String :=
  match v.field? key with
  | some (.string s) => some s
  | _ => none

/-- An unsigned integer, as a number or as a text around which space is dropped. -/
def word? (v : Value) (key : String) : Option Nat :=
  match v.field? key with
  | some (.number (.natural n)) => some n.toNat
  | some (.string s) => readWord (trim s.toList)
  | _ => none

def text? (v : Value) (key : String) : Option String :=
  match v.field? key with
  | some (.string s) => some s
  | some (.number n) => some n.text
  | some (.bool b) => some (if b then "true" else "false")
  | _ => none

def items (v : Value) (key : String) : List Value :=
  match v.field? key with
  | some (.array vs) => vs
  | _ => []

/-- Whether a presence leaf is there or a boolean is true. -/
def flag (v : Value) (key : String) : Bool :=
  match v.field? key with
  | some (.bool b) => b
  | some .null | some (.array _) | some (.object _) => true
  | _ => false

def requireText (v : Value) (key context : String) : Outcome String :=
  match v.text? key with
  | some s => .ok s
  | none => .error (.invalidConfig context s!"missing '{key}'")

def requireWord (v : Value) (key context : String) : Outcome Nat :=
  match v.word? key with
  | some n => .ok n
  | none => .error (.invalidConfig context s!"'{key}' must be an unsigned integer")

end QosControl.Json.Value
