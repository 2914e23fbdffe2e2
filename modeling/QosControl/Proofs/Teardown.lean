import QosControl.Proofs.Checked
import QosControl.Proofs.Held

/-! # What still refers to an object that goes

Interfaces refer to objects in the lines that they hold: a subport names a mark map, a rule
names an action group, and a map is bound. Before an object is removed, ports are told
nothing but to unbind maps. A map is therefore bound nowhere when it goes, while a mark map
or an action group is still named by every port of the old snapshot that named it.
-/
namespace QosControl

inductive PortDirective.RefersTo : PortDirective → ObjectKind → String → Prop
  | markMap (subport : Nat) (name : String) : RefersTo (.markMap subport name) .markMap name
  | actionGroup (subport cls : Nat) {r : Rule} {name : String} : r.actionGroup = some name →
    RefersTo (.rule subport cls r) .actionGroup name
  | bind (m : PortMapKind) (name : String) (v : Nat) : RefersTo (.bind m name v) m.objectKind name

def Held.Refers (h : Held) (kind : ObjectKind) (name : String) : Prop :=
  ∃ ifname, ∃ d ∈ h ifname, d.RefersTo kind name

namespace Snapshot
variable {c : Catalogue} {platform : LimitCapability} {p : Port} {kind : ObjectKind} {name : String}

theorem refers_of_line {d : PortDirective} (hd : Line c p.interface d) (h : d.RefersTo kind name) :
    c.Refers p.interface kind name := by
  cases hd with
  | header => cases h
  | profile hd => cases h <;> cases hd
  | subport hx hd =>
    cases hd with
    | profile hd => cases h <;> cases hd
    | markMap hm =>
      cases h
      exact ⟨_, _, hx, rfl, hm⟩
    | rule hc hr =>
      cases h with
      | actionGroup _ _ hg => exact ⟨_, _, hx, rfl, Shaper.mem_actionGroups.mpr ⟨_, hc, _, hr, hg⟩⟩
    | _ => cases h
  | bind m hu =>
    cases h
    exact ⟨_, Catalogue.refersAt_objectKind.mpr hu⟩
  | enable => cases h

theorem exists_refersTo_iff (platform : LimitCapability) : (∃ d ∈ directives c platform p, d.RefersTo kind name) ↔
    c.Refers p.interface kind name := by
  constructor
  · rintro ⟨d, hd, h⟩
    exact refers_of_line (line_of_mem_directives hd) h
  · rintro ⟨vlan, h⟩
    have hbind : ∀ m : PortMapKind, ⟨name, vlan⟩ ∈ p.interface.mapUses m →
        ∃ d ∈ directives c platform p, d.RefersTo m.objectKind name := by
      intro m hu
      exact ⟨.bind m name vlan, bind_mem_directives.mpr hu, .bind m name vlan⟩
    cases kind with
    | markMap =>
      obtain ⟨x, hx, _, hm⟩ := h
      obtain ⟨parent, hlines⟩ := shaperDirectives_subset platform hx
      refine ⟨.markMap x.1.number name, hlines ?_, .markMap _ _⟩
      simp [Shaper.directives, hm]
    | actionGroup =>
      obtain ⟨x, hx, _, hg⟩ := h
      obtain ⟨g, hg, r, hr, hname⟩ := Shaper.mem_actionGroups.mp hg
      obtain ⟨parent, hlines⟩ := shaperDirectives_subset platform hx
      refine ⟨.rule x.1.number g.id r, hlines ?_, .actionGroup _ _ hname⟩
      have hrule : .rule x.1.number g.id r ∈ x.2.classes.flatMap fun c => c.directives x.1.number :=
        List.mem_flatMap.mpr ⟨g, hg, List.mem_map_of_mem hr⟩
      simp [Shaper.directives, hrule]
    | ingressMap => exact hbind .ingress h
    | egressMap => exact hbind .egress h

theorem refers_held_iff (platform : LimitCapability) {s : Snapshot} : (s.held platform).Refers kind name ↔
    ∃ p ∈ s.ports, s.catalogue.Refers p.interface kind name := by
  constructor
  · rintro ⟨ifname, d, hd, hr⟩
    obtain ⟨p, hp, hd⟩ := mem_held.mp hd
    exact ⟨p, (port?_eq_some_iff.mp hp).1, (exists_refersTo_iff platform).mp ⟨d, hd, hr⟩⟩
  · rintro ⟨p, hp, h⟩
    obtain ⟨d, hd, hr⟩ := (exists_refersTo_iff platform).mpr h
    exact ⟨p.name, d, mem_held.mpr ⟨p, port?_eq_some_iff.mpr ⟨hp, rfl⟩, hd⟩, hr⟩

end Snapshot

namespace Plan
open Snapshot NamedObject Json
variable {old new : Snapshot} {platform : LimitCapability} {before after : List Instruction}
  {kind : ObjectKind} {name : String}

namespace Stages
variable {is : List Instruction} (s : Stages old new platform is)
include s

/-- Before an object is removed, ports are told to unbind maps and nothing else. -/
theorem unbind_of_mem_before_remove (h : is = before ++ .remove kind name :: after) {ifname : String}
    {d : PortDirective} (hd : .port ifname d ∈ before) : ∃ m map vlan, d = .unbind m map vlan := by
  obtain ⟨pre, x, post, _, _, _, _, _, rfl, _⟩ := s.exists_of_remove h
  have hdeletion : ∀ y : NamedObject, .port ifname d ∈ y.deletion → ∃ m map vlan, d = .unbind m map vlan := by
    intro y hy
    rcases mem_deletion.mp hy with hy | ⟨m, _, b, _, hy⟩
    · cases hy
    · exact ⟨m, y.name, b.vlan, (Instruction.port.inj hy).2⟩
  rcases List.mem_append.mp hd with hd | hd
  · rcases List.mem_append.mp hd with hd | hd
    · obtain ⟨_, hd⟩ := s.clears _ hd
      cases hd
    · obtain ⟨y, _, hd⟩ := List.mem_flatMap.mp hd
      exact hdeletion y hd
  · exact hdeletion x (List.mem_append_left _ hd)

theorem mem_replay_before_remove (h : is = before ++ .remove kind name :: after) (held : Held)
    {ifname : String} {d : PortDirective} : d ∈ held.replay before ifname ↔
      d ∈ held ifname ∧ ∀ m map vlan, .port ifname (.unbind m map vlan) ∈ before → d ≠ .bind m map vlan := by
  rw [Held.replay_eq_foldl, mem_foldl_onto_unbind]
  · simp only [mem_linesFor]
  · intro e he
    exact s.unbind_of_mem_before_remove h (mem_linesFor.mp he)

end Stages

theorem eq_bind_of_refersTo {d : PortDirective} {m : PortMapKind} (h : d.RefersTo m.objectKind name) :
    ∃ vlan, d = .bind m name vlan := by
  generalize hk : m.objectKind = kind at h
  cases h with
  | markMap => cases m <;> cases hk
  | actionGroup => cases m <;> cases hk
  | bind k _ vlan =>
    have hm : m = k := by
      rw [← Option.some.injEq, ← m.portMap?_objectKind, hk, k.portMap?_objectKind]
    exact ⟨vlan, by rw [hm]⟩

theorem not_refersTo_bind (hkind : kind.portMap? = none) (m : PortMapKind) (map : String) (vlan : Nat) :
    ¬ (PortDirective.bind m map vlan).RefersTo kind name := by
  intro h
  cases h
  simp at hkind

/-- When an object is removed, an interface still refers to it exactly if it is a mark map or
an action group that a port of the old snapshot names. -/
theorem refers_at_remove_iff (hold : old.Read) (hnew : new.Read) (platform : LimitCapability)
    (h : (between old new platform).instructions = before ++ .remove kind name :: after) :
    ((old.held platform).replay before).Refers kind name ↔
      kind.portMap? = none ∧ ∃ p ∈ old.ports, old.catalogue.Refers p.interface kind name := by
  obtain ⟨s⟩ := nonempty_stages hold.linked.named hnew.linked.named platform
  rw [← refers_held_iff platform]
  simp only [Held.Refers, s.mem_replay_before_remove h]
  cases hkind : kind.portMap? with
  | none =>
    constructor
    · rintro ⟨ifname, d, ⟨hd, _⟩, hr⟩
      exact ⟨rfl, ifname, d, hd, hr⟩
    · rintro ⟨_, ifname, d, hd, hr⟩
      refine ⟨ifname, d, ⟨hd, ?_⟩, hr⟩
      rintro m map vlan _ rfl
      exact not_refersTo_bind hkind m map vlan hr
  | some m =>
    refine ⟨?_, fun h => nomatch h.1⟩
    rintro ⟨ifname, d, ⟨hd, hbound⟩, hr⟩
    -- a port that binds the map was told to unbind it
    cases ObjectKind.objectKind_of_portMap? hkind
    obtain ⟨rest, bs, hbefore, _, husers, _⟩ := s.unbinds_before_remove hold.linked h
    obtain ⟨vlan, rfl⟩ := eq_bind_of_refersTo hr
    obtain ⟨p, hp, hline⟩ := mem_held.mp hd
    obtain ⟨hpo, rfl⟩ := port?_eq_some_iff.mp hp
    have hb : ⟨p.name, vlan⟩ ∈ bs := (husers _).mpr ⟨p, hpo, rfl, bind_mem_directives.mp hline⟩
    have hunbind : .port p.name (.unbind m name vlan) ∈ before := by
      rw [hbefore]
      exact List.mem_append_right _ (List.mem_map.mpr ⟨_, hb, rfl⟩)
    exact absurd rfl (hbound m name vlan hunbind)

/-- A port whose policy has the given further leaves, and the given mark maps beside it. -/
def marked (leaves : List (String × Value)) (maps : List Value) : Snapshot :=
  orEmpty (Scenario.tree { Scenario.empty with
    policies := [.ofFields [("id", .string "p1"), ("shaper", .ofFields ([("default", .string "prof"),
      ("profile", .array [Scenario.profile "prof" "1Gbit"])] ++ leaves))]]
    markMaps := maps
    dscpGroups := [Scenario.dscpGroup "voice" ["46"]]
    ports := [Scenario.port "dp0s1" "p1" []] }) none

theorem refers_at_remove_iff_unbound :
    let old := mapped [(Schema.ingressMap, "in")]
    ∃ before after, (between old (mapped []) .packets).instructions = before ++ .remove .ingressMap "in" :: after ∧
      ¬ ((old.held .packets).replay before).Refers .ingressMap "in" := by
  intro old
  have hmem : .remove .ingressMap "in" ∈ (between old (mapped []) .packets).instructions := by decide +kernel
  obtain ⟨before, after, h⟩ := List.append_of_mem hmem
  refine ⟨before, after, h, fun hr => ?_⟩
  exact nomatch ((refers_at_remove_iff (read_orEmpty _ _) (read_orEmpty _ _) .packets h).mp hr).1

/-- A mark map goes while a port still names it, since the port is rebuilt only after that. -/
theorem exists_refers_at_remove : ∃ old new before after, old.check = .ok () ∧ new.check = .ok () ∧
    Snapshot.Read old ∧ Snapshot.Read new ∧
    (between old new .packets).instructions = before ++ .remove .markMap "mm" :: after ∧
    ((old.held .packets).replay before).Refers .markMap "mm" := by
  let named := marked [("mark-map", .string "mm")] [Scenario.markMap "mm" "voice" 3]
  have hstream : (between named (marked [] []) .packets).instructions.head? = some (.remove .markMap "mm") := by
    decide +kernel
  have hheld : .markMap 0 "mm" ∈ (named.held .packets).replay [] "dp0s1" := by decide +kernel
  obtain ⟨after, hstream⟩ := List.head?_eq_some_iff.mp hstream
  refine ⟨named, marked [] [], [], after, check_eq_ok_iff.mpr ?_, check_eq_ok_iff.mpr ?_,
    read_orEmpty _ _, read_orEmpty _ _, hstream, "dp0s1", _, hheld, .markMap 0 "mm"⟩
  · decide +kernel
  · decide +kernel

end Plan
end QosControl
