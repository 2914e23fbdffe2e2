import QosControl.Table
import QosControl.Text.Numeral

/-! # Profile numbers

The dense profile numbers of one interface. A global profile has one number on the
interface, a local name has one for each VLAN it is used on, and a local name that
is also the name of an indexed global profile has the number of that profile.
Numbers are kept under the texts of what they are looked up by.
-/
namespace QosControl

/-- What a number is looked up by. -/
inductive ProfileKey where
  | shared (name : String)
  | onVlan (vlan : Nat) (name : String)
deriving DecidableEq, Repr

namespace ProfileKey

def text : ProfileKey → String
  | .shared name => s!"global {name}"
  | .onVlan vlan name => s!"{vlan} {name}"

/-- The name of the global profile that a text looks up. -/
def sharedName? (text : String) : Option String :=
  if "global ".toList.isPrefixOf text.toList then some (String.ofList (text.toList.drop "global ".toList.length))
  else none

end ProfileKey

/-- The numbers by the texts of their keys, the numbers of global profiles, and the count of
numbers, which is the next one to be given. -/
structure ProfileIndex where
  numbers : Table String Nat
  globalNumbers : Table Nat Unit
  count : Nat
deriving DecidableEq

namespace ProfileIndex

def empty : ProfileIndex := ⟨.empty, .empty, 0⟩

def findText? (i : ProfileIndex) (text : String) : Option Nat := i.numbers.get? text

def find? (i : ProfileIndex) (key : ProfileKey) : Option Nat := i.findText? key.text

/-- The number of a profile as it is named on a VLAN. -/
def resolve? (i : ProfileIndex) (vlan : Nat) (name : String) : Option Nat := i.find? (.onVlan vlan name)

def put (i : ProfileIndex) (key : ProfileKey) (n : Nat) : ProfileIndex :=
  { i with numbers := i.numbers.insert key.text n }

def fresh (i : ProfileIndex) (key : ProfileKey) : ProfileIndex :=
  { i.put key i.count with count := i.count + 1 }

def mark (i : ProfileIndex) (n : Nat) : ProfileIndex :=
  { i with globalNumbers := i.globalNumbers.insert n () }

/-- The number of a global profile, which is indexed if it is not yet. -/
def allotGlobal (i : ProfileIndex) (name : String) : Nat × ProfileIndex :=
  match i.find? (.shared name) with
  | some n => (n, i)
  | none => (i.count, (i.fresh (.shared name)).mark i.count)

/-- The number of a name on a VLAN, which is indexed if it is not yet. -/
def allotLocal (i : ProfileIndex) (vlan : Nat) (name : String) : Nat × ProfileIndex :=
  match i.resolve? vlan name, i.find? (.shared name) with
  | some n, _ => (n, i)
  | none, some n => (n, i.put (.onVlan vlan name) n)
  | none, none => (i.count, i.fresh (.onVlan vlan name))

def insertGlobal (i : ProfileIndex) (name : String) : ProfileIndex := (i.allotGlobal name).2

def insertLocal (i : ProfileIndex) (vlan : Nat) (name : String) : ProfileIndex := (i.allotLocal vlan name).2

/-- The indexed global profiles with their numbers, in ascending order of numbers. -/
def globals (i : ProfileIndex) : List (String × Nat) :=
  (i.numbers.entries.filterMap fun e => (ProfileKey.sharedName? e.1).map (·, e.2)).mergeSort
    fun g k => g.2 ≤ k.2

def isGlobal (i : ProfileIndex) (n : Nat) : Bool := i.globalNumbers.contains n

end ProfileIndex
end QosControl
