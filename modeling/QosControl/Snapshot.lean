import QosControl.Snapshot.Catalogue
import QosControl.Snapshot.Roster

/-! # Snapshots

One configuration as a whole: its shared objects and its interfaces with their
profile numbers. A snapshot gives the lines of each interface and the failures of
the rules that hold across objects.
-/
namespace QosControl
open Json

/-- An interface with its profile numbers, which take no part in comparing it. -/
structure Port where
  interface : Interface
  index : ProfileIndex

def Port.name (p : Port) : String := p.interface.name

structure Snapshot where
  catalogue : Catalogue
  /-- The interfaces in the order of configuration, each name once. -/
  ports : List Port
  distinct : (ports.map Port.name).Nodup

namespace Snapshot

theorem nodup_names_nil : (([] : List Port).map Port.name).Nodup := List.nodup_nil

def empty : Snapshot := ⟨.empty, [], nodup_names_nil⟩

/-- Links the objects and the interfaces of a configuration. -/
def ofParts (c : Catalogue) (r : Roster) : Snapshot where
  catalogue := c.link r.interfaces
  ports := r.interfaces.map fun i => ⟨i, c.profileIndex i⟩
  distinct := by
    rw [List.map_map]
    exact r.distinct

/-- Reads a tree. With a membership, the configuration of each LAG goes to its ports. -/
def ofTree (tree : Value) (membership : Option Membership) : Outcome Snapshot := do
  let catalogue ← Catalogue.ofTree tree
  let roster ← Roster.ofTree tree membership
  return ofParts catalogue roster

def names (s : Snapshot) : List String := s.ports.map Port.name

def port? (s : Snapshot) (name : String) : Option Port := s.ports.find? fun p => p.name = name

def sortedPorts (s : Snapshot) : List Port := (Table.ofNamed Port.name s.ports).values

/-- A port breaks a rule for each policy it names that is not defined. -/
def portFailures (c : Catalogue) (p : Port) : List CheckFailure :=
  p.interface.policies.flatMap fun name =>
    if c.policies.contains name then []
    else [⟨s!"Policy {name} is not defined", s!"interfaces/{p.name}/policy/qos"⟩]

/-- The rules that a configuration breaks, in the order in which they are checked. -/
def failures (s : Snapshot) : List CheckFailure :=
  let c := s.catalogue
  (c.policies.values.flatMap fun p => p.object.failures c.profiles) ++
  (c.profiles.values.flatMap fun p => p.failures s!"policy/qos/profile/{p.name}") ++
  (c.actionGroups.values.flatMap fun g => g.object.failures) ++
  s.sortedPorts.flatMap (portFailures c)

/-- Refuses a configuration for the first rule that it breaks. -/
def check (s : Snapshot) : Outcome Unit :=
  match s.failures.head? with
  | some f => .error (.check f)
  | none => .ok ()

def retain (s : Snapshot) (names : List String) : Snapshot :=
  let gone := s.names.filter fun n => !names.contains n
  { catalogue := { s.catalogue with
      policies := s.catalogue.policies.mapEntries fun _ p => gone.foldl Shared.dropUser p }
    ports := s.ports.filter fun p => names.contains p.name
    distinct := s.distinct.sublist (List.filter_sublist.map _) }

/-- Takes the shared objects of another snapshot. -/
def shareObjects (s other : Snapshot) : Snapshot := { s with catalogue := other.catalogue }

/-- The definitions of the global profiles of an interface, under its trunk rate. -/
def globalProfileDirectives (c : Catalogue) (platform : LimitCapability) (index : ProfileIndex)
    (rate : Nat) : List PortDirective :=
  index.globals.flatMap fun (name, id) =>
    match c.profiles.get? name with
    | some p => p.directives platform id rate
    | none => []

/-- The lines of the subports of an interface. Percentages of every subport but the
trunk are of the rate of the trunk. -/
def shaperDirectives (platform : LimitCapability) (index : ProfileIndex) (trunkRate : Nat)
    (shapers : List (Subport × Shaper)) : List PortDirective :=
  shapers.flatMap fun (subport, shaper) =>
    shaper.directives platform subport.number subport.vlan index
      (if subport.number = 0 then none else some trunkRate)

def pipeCount (shapers : List (Subport × Shaper)) : Nat :=
  shapers.foldl (fun n p => max n p.2.pipeCount) 1

def bindDirectives (i : Interface) : List PortDirective :=
  [PortMapKind.ingress, .egress].flatMap fun kind =>
    (i.mapUses kind).map fun u => .bind kind u.map u.vlan

def directives (c : Catalogue) (platform : LimitCapability) (p : Port) : List PortDirective :=
  match c.shapers p.interface with
  | [] => bindDirectives p.interface
  | (subport, trunk) :: rest =>
    let shapers := (subport, trunk) :: rest
    let rate := trunk.bandwidth.bytesPerSecond none
    .header shapers.length (pipeCount shapers) (max p.index.count 1) trunk.frameOverhead platform ::
      (globalProfileDirectives c platform p.index rate ++
        shaperDirectives platform p.index rate shapers ++
        bindDirectives p.interface ++ [.enable])

/-- The instructions that configure an interface from scratch. -/
def attachment (s : Snapshot) (platform : LimitCapability) (p : Port) : List Instruction :=
  (directives s.catalogue platform p).map (.port p.name)

end Snapshot
end QosControl
