import QosControl.Binary64.Shortest

/-! # JSON values

The data of a configuration tree. A number keeps whether it is an integer of one
machine word or a double, since only integers are read as quantities. The fields
of an object are kept in ascending order of their keys.
-/
namespace QosControl.Json

inductive Number where
  /-- An integer from zero up to the largest word. -/
  | natural (n : UInt64)
  /-- The negative integer `-(n + 1)`. -/
  | negative (n : Nat)
  | double (x : Binary64)
deriving DecidableEq, Repr

inductive Value where
  | null
  | bool (b : Bool)
  | number (n : Number)
  | string (s : String)
  | array (items : List Value)
  | object (fields : List (String × Value))
deriving Repr

instance : Inhabited Value := ⟨.null⟩

/-- The text of a number: digits for an integer, the shortest numeral for a double. -/
def Number.text : Number → String
  | .natural n => Text.decimal n.toNat
  | .negative n => "-" ++ Text.decimal (n + 1)
  | .double x => String.ofList x.text

/-- Puts a field in its place; a field of the same key is replaced. -/
def insertField (key : String) (v : Value) : List (String × Value) → List (String × Value)
  | [] => [(key, v)]
  | f :: fs =>
    if key < f.1 then (key, v) :: f :: fs
    else if key = f.1 then (key, v) :: fs
    else f :: insertField key v fs

/-- The object with the given fields, the last of each key. -/
def Value.ofFields (fields : List (String × Value)) : Value :=
  .object (fields.foldl (fun fs f => insertField f.1 f.2 fs) [])

def Value.field? (v : Value) (key : String) : Option Value :=
  match v with
  | .object fields => (fields.find? fun f => f.1 == key).map (·.2)
  | _ => none

end QosControl.Json
