import QosControl.Proofs.ObjectSections
import QosControl.Proofs.PortLines

/-! # The stages of a stream

A stream clears switches and removes objects, sets switches and defines objects, and
then configures ports. Only the unbinding of a map that is about to go names a port
before that.
-/
namespace QosControl.Plan
open Snapshot NamedObject

def rebuiltLines (p : Plan) : List Instruction := p.rebuilt.flatMap fun (i, is) => i.disable :: is

def portSection (p : Plan) : List Instruction :=
  p.disabled.map Interface.disable ++ p.rebuiltLines ++ p.added.flatten

theorem body_eq (p : Plan) : p.body = p.removals ++ p.definitions ++ p.portSection := by
  simp only [body, portSection, rebuiltLines, List.append_assoc]

theorem instructions_eq (p : Plan) :
    p.instructions = p.body ++ if p.body.isEmpty then [] else [.commit] := by
  unfold instructions
  split
  next h => simpa using h
  next => rfl

/-- What stands in the last stage of a stream. -/
inductive PortLine (old new : Snapshot) (platform : LimitCapability) : Instruction → Prop
  | commit : PortLine old new platform .commit
  | disabled {p : Port} : p ∈ disabledPorts old new → PortLine old new platform (.port p.name .disable)
  | rebuilt {q : Port} : q ∈ rebuiltPorts old new → PortLine old new platform (.port q.name .disable)
  | line {q : Port} {d : PortDirective} : q ∈ rebuiltPorts old new ∨ q ∈ addedPorts old new →
    d ∈ directives new.catalogue platform q → PortLine old new platform (.port q.name d)

theorem portLine_of_mem_portSection {old new : Snapshot} {platform : LimitCapability} {i : Instruction}
    (hi : i ∈ (between old new platform).portSection) : PortLine old new platform i := by
  rcases List.mem_append.mp hi with hi | hi
  · rcases List.mem_append.mp hi with hi | hi
    · obtain ⟨j, hj, rfl⟩ := List.mem_map.mp hi
      obtain ⟨p, hp, rfl⟩ := List.mem_map.mp hj
      exact .disabled hp
    · obtain ⟨⟨j, is⟩, hj, hi⟩ := List.mem_flatMap.mp hi
      obtain ⟨q, hq, hqj⟩ := List.mem_map.mp hj
      cases hqj
      rcases List.mem_cons.mp hi with rfl | hi
      · exact .rebuilt hq
      · obtain ⟨d, hd, rfl⟩ := mem_attachment.mp hi
        exact .line (.inl hq) hd
  · obtain ⟨is, his, hi⟩ := List.mem_flatten.mp hi
    obtain ⟨q, hq, rfl⟩ := List.mem_map.mp his
    obtain ⟨d, hd, rfl⟩ := mem_attachment.mp hi
    exact .line (.inr hq) hd

/-- A stream between two snapshots with its stages. -/
structure Stages (old new : Snapshot) (platform : LimitCapability) (is : List Instruction) where
  clearing : List Instruction
  setting : List Instruction
  ports : List Instruction
  eq : is = clearing ++ (old.catalogue.outgoing new.catalogue).flatMap deletion ++ setting ++
    (old.catalogue.incoming new.catalogue).flatMap creation ++ ports
  clears : ∀ i ∈ clearing, ∃ switch, i = .clearSwitch switch
  sets : ∀ i ∈ setting, ∃ switch n, i = .setSwitch switch n
  configures : ∀ i ∈ ports, PortLine old new platform i

theorem nonempty_stages {old new : Snapshot} (hold : old.catalogue.Named) (hnew : new.catalogue.Named)
    (platform : LimitCapability) : Nonempty (Stages old new platform (between old new platform).instructions) := by
  refine ⟨{
    clearing := Platform.clearing old.catalogue.platform new.catalogue.platform
    setting := Platform.setting old.catalogue.platform new.catalogue.platform
    ports := (between old new platform).portSection ++
      if (between old new platform).body.isEmpty then [] else [.commit]
    eq := ?_
    clears := fun i hi => Platform.mem_clearing hi
    sets := fun i hi => Platform.mem_setting hi
    configures := ?_ }⟩
  · rw [instructions_eq, body_eq, removals_between hold, definitions_between hnew]
    simp only [List.append_assoc]
  · intro i hi
    rcases List.mem_append.mp hi with hi | hi
    · exact portLine_of_mem_portSection hi
    · rw [List.mem_singleton.mp (List.mem_ite_nil_left.mp hi).2]
      exact .commit

namespace Stages
variable {old new : Snapshot} {platform : LimitCapability} {is : List Instruction}
  (s : Stages old new platform is)

/-- All stages but the last. -/
def front : List Instruction :=
  s.clearing ++ (old.catalogue.outgoing new.catalogue).flatMap deletion ++ s.setting ++
    (old.catalogue.incoming new.catalogue).flatMap creation

/-- Before the last stage ports are named only where maps are unbound. -/
theorem port_not_mem_front {ifname : String} {d : PortDirective} (hd : ∀ m name vlan, d ≠ .unbind m name vlan) :
    .port ifname d ∉ s.front := by
  simp only [front, List.mem_append, or_assoc]
  rintro (h | h | h | h)
  · obtain ⟨_, h⟩ := s.clears _ h
    cases h
  · obtain ⟨x, _, h⟩ := List.mem_flatMap.mp h
    rcases mem_deletion.mp h with h | ⟨m, _, b, _, h⟩
    · cases h
    · exact hd m x.name b.vlan (Instruction.port.inj h).2
  · obtain ⟨_, _, h⟩ := s.sets _ h
    cases h
  · obtain ⟨x, _, h⟩ := List.mem_flatMap.mp h
    obtain ⟨_, _, h⟩ := mem_creation.mp h
    cases h

include s in
theorem portLine_of_mem {ifname : String} {d : PortDirective} (hd : ∀ m name vlan, d ≠ .unbind m name vlan)
    (h : .port ifname d ∈ is) : PortLine old new platform (.port ifname d) := by
  have hports : .port ifname d ∈ s.front ++ s.ports := s.eq ▸ h
  exact s.configures _ ((List.mem_append.mp hports).resolve_left (s.port_not_mem_front hd))

end Stages
end QosControl.Plan
