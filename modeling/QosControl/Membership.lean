import QosControl.Fault
import QosControl.Json.Reader
import QosControl.Table

/-! # LAG membership

Which ports each LAG has, as a notification reports it. A member is an object with
two texts, in which unknown fields are ignored, or a list of the two texts.
-/
namespace QosControl
open Json

structure Member where
  port : String
  group : String
deriving DecidableEq, Repr

/-- The ordered members of each LAG. -/
structure Membership where
  groups : Table String (List Member)
deriving DecidableEq

namespace Membership

def empty : Membership := ⟨.empty⟩

def ofGroups (gs : List (String × List Member)) : Membership := ⟨Table.ofList gs⟩

/-- The membership of LAGs with plain port lists. -/
def ofPorts (gs : List (String × List String)) : Membership :=
  ofGroups (gs.map fun g => (g.1, g.2.map fun port => ⟨port, g.1⟩))

/-- A tree that is a string. -/
def textOf? : Tree → Option String
  | .string us => stringOf? us
  | _ => none

/-- The member of decoded keys and their trees; both texts are given once. -/
def memberOfFields? (fields : List (String × Tree)) : Option Member := do
  let [port] := fields.filter fun f => f.1 = "tagnode" | none
  let [group] := fields.filter fun f => f.1 = "bond-group" | none
  return ⟨← textOf? port.2, ← textOf? group.2⟩

def memberOfTree? : Tree → Option Member
  | .object members => do
    memberOfFields? (← members.mapM fun (key, t) => (stringOf? key).map (·, t))
  | .array [port, group] => do return ⟨← textOf? port, ← textOf? group⟩
  | _ => none

def groupOfMember? (key : List StringUnit) : Tree → Option (String × List Member)
  | .array items => do return (← stringOf? key, ← items.mapM memberOfTree?)
  | _ => none

def ofTree? : Tree → Option Membership
  | .object members => (members.mapM fun (key, t) => groupOfMember? key t).map ofGroups
  | _ => none

/-- Reads a notification. -/
def ofText (payload : String) : Outcome Membership :=
  match (Tree.ofText? payload).bind ofTree? with
  | some m => .ok m
  | none => .error (.json "bond membership" "malformed membership")

def groupNames (m : Membership) : List String := m.groups.keys

/-- The members of a LAG, none when it is unknown. -/
def members (m : Membership) (group : String) : List Member := (m.groups.get? group).getD []

/-- The LAG that a port belongs to, the first by name. -/
def groupOf? (m : Membership) (port : String) : Option String :=
  (m.groups.entries.find? fun g => g.2.any fun x => x.port = port).map (·.1)

def ports (m : Membership) : List String := m.groups.values.flatten.map (·.port)

/-- The ports whose LAG differs between two memberships, in ascending order. -/
def changedPorts (old new : Membership) : List String :=
  sortedKeys ((old.ports ++ new.ports).filter fun p => old.groupOf? p ≠ new.groupOf? p)

end Membership
end QosControl
