import QosControl.Json.Printer
import QosControl.Membership
import QosControl.Schema

/-! # Scenarios

Configuration trees put together from parts, and the policies, maps, ports and
membership notifications that they are made of.
-/
namespace QosControl
open Json

structure Scenario where
  policies : List Value
  profiles : List Value
  markMaps : List Value
  ingressMaps : List Value
  egressMaps : List Value
  actionGroups : List Value
  dscpGroups : List Value
  platform : Option Value
  ports : List Value
  lags : List Value

namespace Scenario

def empty : Scenario := ⟨[], [], [], [], [], [], [], none, [], []⟩

def word (n : Nat) : Value := .number (.natural (UInt64.ofNat n))

/-- A list field, left out when the list is empty. -/
def listField (key : String) (vs : List Value) : List (String × Value) :=
  if vs.isEmpty then [] else [(key, .array vs)]

/-- An object field, left out when the object has no fields. -/
def objectField (key : String) (fields : List (String × Value)) : List (String × Value) :=
  if fields.isEmpty then [] else [(key, .ofFields fields)]

def tree (s : Scenario) : Value :=
  let qos := listField "name" s.policies ++ listField "profile" s.profiles ++
    listField "mark-map" s.markMaps ++ listField "ingress-map" s.ingressMaps ++
    listField "egress-map" s.egressMaps ++ (s.platform.map fun p => ("platform", p)).toList
  .ofFields (
    objectField Schema.policy (objectField Schema.qos qos ++
      objectField Schema.action (listField "name" s.actionGroups)) ++
    objectField Schema.resources (objectField Schema.resourceGroup
      (listField Schema.dscpGroup s.dscpGroups)) ++
    objectField Schema.interfaces (listField Schema.dataplane s.ports ++
      listField Schema.bonding s.lags))

def profile (name rate : String) : Value :=
  .ofFields [("id", .string name), ("bandwidth", .string rate)]

/-- A policy with one local profile, which is its default. -/
def simplePolicy (name rate profileName profileRate : String) : Value :=
  .ofFields [("id", .string name), ("shaper", .ofFields [
    ("bandwidth", .string rate), ("frame-overhead", word 24), ("default", .string profileName),
    ("profile", .array [profile profileName profileRate])])]

/-- A policy whose pipes use global profiles. -/
def globalPolicy (name default : String) (classes : List (Nat × String)) : Value :=
  .ofFields [("id", .string name), ("shaper", .ofFields [
    ("default", .string default),
    ("class", .array (classes.map fun c =>
      .ofFields [("id", word c.1), ("profile", .string c.2)]))])]

def markMap (name group : String) (pcp : Nat) : Value :=
  .ofFields [("id", .string name), ("dscp-group", .array [
    .ofFields [("group-name", .string group), ("pcp-mark", word pcp)]])]

def ingressMap (name group : String) (designation : Nat) : Value :=
  .ofFields [("id", .string name), ("dscp-group", .array [
    .ofFields [("id", .string group), ("designation", word designation)]])]

def egressMap (name : String) (designation : Nat) (dscp : String) : Value :=
  .ofFields [("id", .string name), ("designation", .array [
    .ofFields [("id", word designation), ("dscp", .string dscp)]])]

def dscpGroup (name : String) (members : List String) : Value :=
  .ofFields [("group-name", .string name), ("dscp", .array (members.map .string))]

def platformParameters (bufferThreshold localPriority : Option Nat) : Value :=
  .ofFields ((bufferThreshold.map fun n => ("buffer-threshold", word n)).toList ++
    (localPriority.map fun n => ("local-priority-designation", word n)).toList)

/-- What an interface or a VLAN carries: a policy, and maps by the names of their leaves. -/
def carrying (policy : String) (maps : List (String × String)) : List (String × Value) :=
  [(Schema.interfacePolicy, .ofFields ((Schema.qos, .string policy) ::
    maps.map fun m => (m.1, .string m.2)))]

def port (name policy : String) (maps : List (String × String)) : Value :=
  .ofFields (("tagnode", .string name) :: carrying policy maps)

/-- A port with policies on its VLANs and perhaps one on its trunk. -/
def portWithVlans (name : String) (trunk : Option String) (vlans : List (Nat × String)) : Value :=
  .ofFields (("tagnode", .string name) ::
    (trunk.toList.flatMap fun p => carrying p []) ++
    [("vif", .array (vlans.map fun v => .ofFields (("tagnode", word v.1) :: carrying v.2 [])))])

/-- The notification of LAGs with plain port lists. -/
def notification (groups : List (String × List String)) : String :=
  (Value.ofFields (groups.map fun g => (g.1, .array (g.2.map fun p =>
    .ofFields [("tagnode", .string p), ("bond-group", .string g.1)])))).text

end Scenario
end QosControl
