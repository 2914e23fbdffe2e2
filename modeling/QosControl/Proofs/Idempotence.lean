import QosControl.Proofs.FastPath

/-! # Plans that do nothing

The plan between two snapshots does nothing when both have the same interfaces and objects that
are alike. Who uses an object, and in what order, does not show, and neither does the order of
ports nor the numbers of their profiles.
-/
namespace QosControl
open Json

namespace Snapshot
variable {old new : Snapshot}

theorem alike_self (s : Snapshot) : Alike s s where
  agrees := s.catalogue.agrees_self
  object? _ _ := rfl
  refersAt_iff := Iff.rfl

/-- Whether two snapshots have the same interface under every name. -/
def SamePorts (old new : Snapshot) : Prop :=
  ∀ ifname, (old.port? ifname).map Port.interface = (new.port? ifname).map Port.interface

theorem SamePorts.exists_port (h : SamePorts old new) {ifname : String} {p : Port}
    (hp : old.port? ifname = some p) : ∃ q, new.port? ifname = some q ∧ p.interface = q.interface := by
  have hsame := h ifname
  rw [hp, Option.map_some, eq_comm, Option.map_eq_some_iff] at hsame
  obtain ⟨q, hq, heq⟩ := hsame
  exact ⟨q, hq, heq.symm⟩

theorem SamePorts.symm (h : SamePorts old new) : SamePorts new old := fun ifname => (h ifname).symm

theorem disabledPorts_eq_nil (h : SamePorts old new) : disabledPorts old new = [] := by
  refine List.eq_nil_iff_forall_not_mem.mpr fun p hp => ?_
  obtain ⟨hp, hne⟩ := mem_disabledPorts.mp hp
  obtain ⟨q, hq, heq⟩ := h.exists_port (port?_eq_some_iff.mpr ⟨hp, rfl⟩)
  exact hne q hq heq

theorem addedPorts_eq_nil (h : SamePorts old new) : addedPorts old new = [] := by
  refine List.eq_nil_iff_forall_not_mem.mpr fun q hq => ?_
  obtain ⟨hq, hne⟩ := mem_addedPorts.mp hq
  obtain ⟨p, hp, heq⟩ := h.symm.exists_port (port?_eq_some_iff.mpr ⟨hq, rfl⟩)
  exact hne p hp heq.symm

end Snapshot

namespace Plan
open Snapshot
variable {old new : Snapshot}

theorem portSection_eq_nil (hports : SamePorts old new) (hagrees : old.catalogue.Agrees new.catalogue)
    (platform : LimitCapability) : (between old new platform).portSection = [] := by
  rw [portSection_between, disabledPorts_eq_nil hports, addedPorts_eq_nil hports, rebuiltPorts_eq_nil hagrees]
  rfl

/-- Between snapshots with the same interfaces and objects that are alike there is nothing to do. -/
theorem commands_eq_nil (hold : old.Linked) (hnew : new.Linked) (hports : SamePorts old new)
    (h : Alike old new) (platform : LimitCapability) : (between old new platform).commands = [] := by
  have hsection := portSection_eq_nil hports h.agrees platform
  have hobjects := objectSection_eq_nil_of_portSection_eq_nil hsection hold hnew h
  have hbody : (between old new platform).body = [] := by
    rw [body_eq_objectSection_append hold.named hnew.named h.agrees.platform, hobjects, hsection]
    rfl
  rw [commands, instructions_eq_committed, hbody]
  rfl

theorem commands_self {s : Snapshot} (h : s.Linked) (platform : LimitCapability) :
    (between s s platform).commands = [] :=
  commands_eq_nil h h (fun _ => rfl) s.alike_self platform

end Plan

namespace Dataplane

/-- A stream that says nothing opens no pass. -/
theorem deliver_nil (ds : List Dataplane) : deliver [] ds = (ds, none) := rfl

end Dataplane
end QosControl
