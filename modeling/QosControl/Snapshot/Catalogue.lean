import QosControl.Interface
import QosControl.Object.ActionGroup
import QosControl.Object.EgressMap
import QosControl.Object.IngressMap
import QosControl.Object.MarkMap
import QosControl.Platform

/-! # Catalogues

The shared objects of a configuration by name, each with its users, and the
platform parameters. References between objects are names.
-/
namespace QosControl
open Json

abbrev Objects (α : Type) := Table String (Shared α Binding)

structure Catalogue where
  /-- Policies with the names of the interfaces that use them. -/
  policies : Table String (Shared Policy String)
  profiles : Profiles
  /-- The names of global profiles in the order of configuration. -/
  profileOrder : List String
  markMaps : Objects MarkMap
  ingressMaps : Objects IngressMap
  egressMaps : Objects EgressMap
  actionGroups : Objects ActionGroup
  platform : Platform

namespace Catalogue

def empty : Catalogue := ⟨.empty, .empty, [], .empty, .empty, .empty, .empty, Platform.unset⟩

/-- Reads a list of named objects; of several with one name the last counts. -/
def readNamed {α β : Type} (name : α → String) (read : Value → Outcome α) (vs : List Value) :
    Outcome (Table String (Shared α β)) := do
  return Table.ofList ((← vs.mapM read).map fun a => (name a, Shared.unused a))

def dscpGroups (tree : Value) : DscpGroups :=
  .ofValues ((((tree.field? Schema.resources).bind (·.field? Schema.resourceGroup)).map
    (·.items Schema.dscpGroup)).getD [])

def ofTree (tree : Value) : Outcome Catalogue := do
  let groups := dscpGroups tree
  let policy := tree.field? Schema.policy
  let qos := (policy.bind (·.field? Schema.qos)).getD .null
  let action := (policy.bind (·.field? Schema.action)).getD .null
  let policies ← readNamed Policy.name Policy.ofValue (qos.items "name")
  let profiles ← (qos.items "profile").mapM Profile.ofValue
  let markMaps ← readNamed MarkMap.name (MarkMap.ofValue groups) (qos.items "mark-map")
  let ingressMaps ← readNamed IngressMap.name (IngressMap.ofValue groups) (qos.items "ingress-map")
  let egressMaps ← readNamed EgressMap.name (EgressMap.ofValue groups) (qos.items "egress-map")
  let actionGroups ← readNamed ActionGroup.name ActionGroup.ofValue (action.items "name")
  return {
    policies, markMaps, ingressMaps, egressMaps, actionGroups
    profiles := Table.ofNamed Profile.name profiles
    profileOrder := (profiles.map (·.name)).eraseDups
    platform := Platform.ofValue qos }

def policy? (c : Catalogue) (name : String) : Option Policy := (c.policies.get? name).map (·.object)

/-- The shaper that drives a subport; a trunk without a policy has the built-in one. -/
def shaper? (c : Catalogue) (s : Subport) : Option Shaper :=
  match s.policy with
  | some name => (c.policy? name).map (·.shaper)
  | none => some Shaper.trunk

/-- The subports of an interface whose policies are defined, with their shapers. -/
def shapers (c : Catalogue) (i : Interface) : List (Subport × Shaper) :=
  i.subports.filterMap fun s => (c.shaper? s).map (s, ·)

def shaperBindings (c : Catalogue) (uses : Shaper → Bool) (i : Interface) : List Binding :=
  ((c.shapers i).filter fun p => uses p.2).map fun p => ⟨i.name, p.1.vlan⟩

def mapBindings (kind : PortMapKind) (map : String) (i : Interface) : List Binding :=
  ((i.mapUses kind).filter fun u => u.map = map).map fun u => ⟨i.name, u.vlan⟩

def bindAll {α : Type} (objects : Objects α) (interfaces : List Interface)
    (places : String → Interface → List Binding) : Objects α :=
  objects.mapEntries fun name o => o.addUsers (interfaces.flatMap (places name))

/-- Fills in the users of every object. -/
def link (c : Catalogue) (interfaces : List Interface) : Catalogue :=
  { c with
    policies := c.policies.mapEntries fun name p =>
      p.addUsers ((interfaces.filter fun i => i.policies.contains name).map (·.name))
    markMaps := bindAll c.markMaps interfaces fun name =>
      c.shaperBindings fun s => s.markMap = some name
    actionGroups := bindAll c.actionGroups interfaces fun name =>
      c.shaperBindings fun s => s.actionGroups.contains name
    ingressMaps := bindAll c.ingressMaps interfaces (mapBindings .ingress)
    egressMaps := bindAll c.egressMaps interfaces (mapBindings .egress) }

/-- Numbers the profiles of an interface: the global profiles that any subport uses,
in the order of configuration, then the profiles of each subport. -/
def profileIndex (c : Catalogue) (i : Interface) : ProfileIndex :=
  let shapers := c.shapers i
  let used := shapers.flatMap fun p => p.2.referencedGlobals c.profiles
  let globals := (c.profileOrder.filter used.contains).foldl ProfileIndex.insertGlobal .empty
  shapers.foldl (fun index p => p.2.indexProfiles index p.1.vlan c.profiles) globals

end Catalogue
end QosControl
