import QosControl.Snapshot

/-! # Plans

The difference between two snapshots as an ordered stream of instructions. Shared
objects are removed and defined first, so that nothing refers to an object before it
is there; then interfaces are disabled, rebuilt and added; a commit ends a stream
that does anything.
-/
namespace QosControl
open Json

/-- A stream in its sections, and the maps that are held back until they are bound. -/
structure Plan where
  /-- Removal of shared objects and platform switches. -/
  removals : List Instruction
  /-- Definition of shared objects and platform switches. -/
  definitions : List Instruction
  /-- Interfaces to be disabled. -/
  disabled : List Interface
  /-- Interfaces to be disabled and configured anew, with their configuration. -/
  rebuilt : List (Interface × List Instruction)
  /-- Configuration of interfaces that are new. -/
  added : List (List Instruction)
  deferred : List String

namespace Plan

def body (p : Plan) : List Instruction :=
  p.removals ++ p.definitions ++ p.disabled.map Interface.disable ++
    (p.rebuilt.flatMap fun (i, is) => i.disable :: is) ++ p.added.flatten

def instructions (p : Plan) : List Instruction :=
  if p.body.isEmpty then [] else p.body ++ [.commit]

def commands (p : Plan) : List Command := p.instructions.map Instruction.command

def isEmpty (p : Plan) : Bool := p.body.isEmpty

end Plan

section Objects
variable {α : Type} [DecidableEq α] [Provisioned α]

/-- Whether an object was there before, and not held back. -/
def existed (old : Option (Shared α Binding)) : Bool := old.any fun o => !o.deferred

/-- Whether an object was there before with another definition. -/
def redefined (old : Option (Shared α Binding)) (new : Shared α Binding) : Bool :=
  old.any fun o => o.object ≠ new.object

/-- Removal of an object that is no longer configured. -/
def removeAbsent (new : Objects α) (name : String) (o : Shared α Binding) : List Instruction :=
  if new.contains name || o.deferred then [] else o.deletion

/-- Removal of an object that lost its last binding or is defined anew while nothing
is bound to it. -/
def removeOutdated (old : Objects α) (name : String) (o : Shared α Binding) : List Instruction :=
  match old.get? name with
  | some p =>
    if !p.deferred && (o.deferred || (redefined (some p) o && o.users.isEmpty)) then p.deletion else []
  | none => []

def objectRemovals (old new : Objects α) : List Instruction :=
  (old.entries.flatMap fun e => removeAbsent new e.1 e.2) ++
    new.entries.flatMap fun e => removeOutdated old e.1 e.2

def defineObject (old : Objects α) (name : String) (o : Shared α Binding) : List Instruction :=
  if !o.deferred && (!existed (old.get? name) || redefined (old.get? name) o) then o.creation else []

def objectDefinitions (old new : Objects α) : List Instruction :=
  new.entries.flatMap fun e => defineObject old e.1 e.2

def deferredNames (new : Objects α) : List String :=
  (new.entries.filter fun e => e.2.deferred).map (·.1)

def redefinedUsers (old new : Objects α) : List String :=
  (new.entries.filter fun e => redefined (old.get? e.1) e.2).flatMap fun e => e.2.users.map (·.ifname)

end Objects

namespace Snapshot

def keeps (s : Snapshot) (i : Interface) : Bool := (s.port? i.name).any fun p => p.interface = i

def has (s : Snapshot) (name : String) : Bool := (s.port? name).isSome

def addedPorts (old new : Snapshot) : List Port := new.ports.filter fun p => !old.keeps p.interface

/-- The interfaces of the old snapshot to be disabled: the changed ones in the order
of the new snapshot, then those that are gone. -/
def disabledPorts (old new : Snapshot) : List Port :=
  ((addedPorts old new).filterMap fun p => old.port? p.name) ++
    old.ports.filter fun p => !new.has p.name

def platformChanged (old new : Snapshot) : Bool :=
  old.catalogue.platform ≠ new.catalogue.platform

def repolicied (old new : Snapshot) : List String :=
  (new.catalogue.policies.entries.filter fun e =>
    (old.catalogue.policies.get? e.1).any fun p => p.object ≠ e.2.object).flatMap fun e => e.2.users

def reprofiled (old new : Snapshot) : List String :=
  (new.catalogue.profiles.entries.filter fun e =>
    (old.catalogue.profiles.get? e.1).any fun p => p ≠ e.2).flatMap fun e =>
      (new.ports.filter fun p => (p.index.find? (.shared e.1)).isSome).map Port.name

/-- The names of interfaces that something they depend on changes, each once. -/
def affected (old new : Snapshot) : List String :=
  ((if platformChanged old new then (new.names.filter old.has) else []) ++
    repolicied old new ++ reprofiled old new ++
    redefinedUsers old.catalogue.markMaps new.catalogue.markMaps ++
    redefinedUsers old.catalogue.actionGroups new.catalogue.actionGroups ++
    redefinedUsers old.catalogue.ingressMaps new.catalogue.ingressMaps ++
    redefinedUsers old.catalogue.egressMaps new.catalogue.egressMaps).eraseDups

/-- The affected ports that are not disabled or added anyway. -/
def rebuiltPorts (old new : Snapshot) : List Port :=
  ((affected old new).filter fun name =>
    !((addedPorts old new).map Port.name).contains name &&
    !((disabledPorts old new).map Port.name).contains name).filterMap new.port?

end Snapshot

namespace Plan
open Snapshot

/-- The plan that takes a dataplane from one snapshot to another. -/
def between (old new : Snapshot) (platform : LimitCapability) : Plan :=
  let a := old.catalogue
  let b := new.catalogue
  { removals := Platform.clearing a.platform b.platform ++
      objectRemovals a.markMaps b.markMaps ++ objectRemovals a.actionGroups b.actionGroups ++
      objectRemovals a.ingressMaps b.ingressMaps ++ objectRemovals a.egressMaps b.egressMaps
    definitions := Platform.setting a.platform b.platform ++
      objectDefinitions a.markMaps b.markMaps ++ objectDefinitions a.actionGroups b.actionGroups ++
      objectDefinitions a.ingressMaps b.ingressMaps ++ objectDefinitions a.egressMaps b.egressMaps
    disabled := (disabledPorts old new).map (·.interface)
    rebuilt := (rebuiltPorts old new).map fun p => (p.interface, new.attachment platform p)
    added := (addedPorts old new).map (new.attachment platform)
    deferred := deferredNames b.markMaps ++ deferredNames b.actionGroups ++
      deferredNames b.ingressMaps ++ deferredNames b.egressMaps }

/-- The plan of a LAG membership change. Both snapshots are cut down to the ports whose
LAG changes and have the same shared objects, so no other port is touched. -/
def forMembershipChange (tree : Value) (old new : Membership) (platform : LimitCapability) :
    Outcome Plan := do
  let ports := Membership.changedPorts old new
  let before ← Snapshot.ofTree tree (some old)
  let after ← Snapshot.ofTree tree (some new)
  let kept := after.retain ports
  return between ((before.retain ports).shareObjects kept) kept platform

end Plan
end QosControl
