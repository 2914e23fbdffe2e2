import QosControl.Object.Basic
import QosControl.Schema

/-! # Interfaces

Ports and LAGs with the policies and maps they carry. The trunk is subport zero on
VLAN zero; a trunk without a policy is a subport as soon as a VLAN has one.
-/
namespace QosControl
open Json

inductive InterfaceKind where
  | dataplane
  | bonding
  /-- A port that carries the configuration of its LAG. -/
  | memberOf (lag : String)
deriving DecidableEq, Repr

/-- A policy on the trunk or on one VLAN. -/
structure Subport where
  number : Nat
  vlan : Nat
  /-- The name of the policy, none for a trunk that only carries VLANs. -/
  policy : Option String
deriving DecidableEq, Repr

structure MapUse where
  map : String
  vlan : Nat
deriving DecidableEq, Repr

structure Interface where
  name : String
  kind : InterfaceKind
  subports : List Subport
  ingressMaps : List MapUse
  egressMaps : List MapUse
deriving DecidableEq, Repr

/-- What the trunk or a VLAN carries. -/
structure Attachment where
  vlan : Nat
  policy : Option String
  ingressMap : Option String
  egressMap : Option String
deriving DecidableEq, Repr

namespace Attachment

def ofValue (vlan : Nat) (v : Value) : Attachment where
  vlan := vlan
  policy := (v.field? Schema.interfacePolicy).bind (·.text? Schema.qos)
  ingressMap := (v.field? Schema.interfacePolicy).bind (·.text? Schema.ingressMap)
  egressMap := (v.field? Schema.interfacePolicy).bind (·.text? Schema.egressMap)

def isEmpty (a : Attachment) : Bool :=
  a.policy.isNone && a.ingressMap.isNone && a.egressMap.isNone

def maxVlan : Nat := Text.wordMax 16

/-- What a VLAN entry carries, if it is in range and carries anything. -/
def ofVlan? (v : Value) : Outcome (Option Attachment) := do
  let vlan ← v.requireWord "tagnode" "vif"
  let a := ofValue vlan v
  return if vlan ≤ maxVlan ∧ ¬ a.isEmpty then some a else none

/-- The subports of a trunk and its VLANs, numbered in order. -/
def subports (trunk : Attachment) (vlans : List Attachment) : List Subport :=
  let carrying := vlans.filter (·.policy.isSome)
  if trunk.policy.isSome || !carrying.isEmpty then
    (trunk :: carrying).mapIdx fun i a => ⟨i, a.vlan, a.policy⟩
  else []

def mapUses (map : Attachment → Option String) (as : List Attachment) : List MapUse :=
  as.filterMap fun a => (map a).map (⟨·, a.vlan⟩)

end Attachment

namespace Interface

/-- The interface of an entry, none when the entry carries nothing. -/
def ofEntry? (name : String) (kind : InterfaceKind) (v : Value) : Outcome (Option Interface) := do
  let trunk := Attachment.ofValue 0 v
  let vlans := (← (v.items "vif").mapM Attachment.ofVlan?).filterMap id
  return if trunk.isEmpty && vlans.isEmpty then none
    else some {
      name, kind
      subports := Attachment.subports trunk vlans
      ingressMaps := Attachment.mapUses (·.ingressMap) (trunk :: vlans)
      egressMaps := Attachment.mapUses (·.egressMap) (trunk :: vlans) }

def ofValue? (kind : InterfaceKind) (v : Value) : Outcome (Option Interface) := do
  ofEntry? (← v.requireText "tagnode" "interface") kind v

/-- A member port with the configuration of its LAG, without which it cannot be. -/
def memberPort? (port : String) (lag : Option Value) : Outcome (Option Interface) :=
  match lag with
  | none => .error (.contract s!"bond member {port} built without its LAG subtree")
  | some v => do ofEntry? port (.memberOf (← v.requireText "tagnode" "bonding")) v

def policies (i : Interface) : List String := i.subports.filterMap (·.policy)

def mapUses (i : Interface) : PortMapKind → List MapUse
  | .ingress => i.ingressMaps
  | .egress => i.egressMaps

/-- The instruction that takes everything off an interface. -/
def disable (i : Interface) : Instruction := .port i.name .disable

end Interface
end QosControl
