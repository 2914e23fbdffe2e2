import QosControl.Policy

/-! # Shared objects

Named objects that are provisioned apart from the interfaces that use them. A map
that ports bind is unbound everywhere before it is removed, and may be held back
until something binds it.
-/
namespace QosControl
open Json

abbrev DscpGroups := Table String (List Nat)

/-- The code points of a group member, none when it cannot be read. -/
def memberCodePoints (v : Value) : List Nat :=
  match v with
  | .string s => (codePoints? s).getD []
  | .number n => (codePoints? n.text).getD []
  | _ => []

/-- The groups of a group list; an entry without a name is skipped. -/
def DscpGroups.ofValues (vs : List Value) : DscpGroups :=
  Table.ofList (vs.filterMap fun v =>
    (v.text? "group-name").map fun name => (name, sortedKeys ((v.items "dscp").flatMap memberCodePoints)))

class Provisioned (α : Type) where
  kind : ObjectKind
  name : α → String
  /-- The lines that define an object. -/
  lines : α → List String
  /-- How ports bind an object, if they do. -/
  portMap : Option PortMapKind
  /-- Whether an object is provisioned only once it is bound. -/
  deferrable : α → Bool

namespace Shared
variable {α : Type} [Provisioned α]
open Provisioned

def name (s : Shared α Binding) : String := Provisioned.name s.object

/-- Whether an object is held back until something binds it. -/
def deferred (s : Shared α Binding) : Bool := deferrable s.object && s.users.isEmpty

def creation (s : Shared α Binding) : List Instruction :=
  (lines s.object).map (.define (kind α) s.name)

/-- Unbinds an object that ports bind, wherever it is bound. -/
def unbinding (s : Shared α Binding) : List Instruction :=
  match portMap α with
  | some k => s.users.map fun b => .port b.ifname (.unbind k s.name b.vlan)
  | none => []

def deletion (s : Shared α Binding) : List Instruction :=
  s.unbinding ++ [.remove (kind α) s.name]

end Shared
end QosControl
