import QosControl.Proofs.Coverage
import QosControl.Proofs.Layout
import QosControl.Proofs.MemberPorts
import QosControl.Proofs.Teardown

/-! # The plan of a membership change

A change of LAG membership is planned on the ports whose LAG changes, with the objects of the
new membership on both sides. The full plan between the two snapshots tells ports the same: a
port of the same LAG is the same port, and the objects of one tree have one definition, so
nothing is rebuilt. The full plan only has more to say of maps that get their first binding or
lose their last, and then it also has something to say to a port.
-/
namespace QosControl
open Json

/-- Whether an instruction defines or removes an object, or unbinds one. -/
inductive Instruction.Provisions : Instruction → Prop
  | define (kind : ObjectKind) (name line : String) : Provisions (.define kind name line)
  | remove (kind : ObjectKind) (name : String) : Provisions (.remove kind name)
  | unbind (ifname : String) (m : PortMapKind) (name : String) (vlan : Nat) :
    Provisions (.port ifname (.unbind m name vlan))

/-- Whether two catalogues define what both define alike, and have the same platform parameters. -/
structure Catalogue.Agrees (a b : Catalogue) : Prop where
  platform : a.platform = b.platform
  policies : ∀ name, ¬ Redefined a.policies b.policies name
  profiles : ∀ name, ¬ a.RedefinesProfile b name
  objects : ∀ kind name, ¬ a.Redefines b kind name

namespace Catalogue

theorem agrees_self (c : Catalogue) : c.Agrees c where
  platform := rfl
  policies := by
    rintro name ⟨o, s, ho, hs, hne⟩
    cases ho.symm.trans hs
    exact hne rfl
  profiles := by
    rintro name ⟨p, q, hp, hq, hne⟩
    cases hp.symm.trans hq
    exact hne rfl
  objects := by
    rintro kind name h
    cases kind <;>
    · obtain ⟨o, s, ho, hs, hne⟩ := h
      cases ho.symm.trans hs
      exact hne rfl

theorem not_redefined_mapEntries {α β : Type} [DecidableEq β] (t : Table String (Shared α β))
    (users users' : String → List β) (name : String) :
    ¬ Redefined (t.mapEntries fun n s => s.addUsers (users n))
      (t.mapEntries fun n s => s.addUsers (users' n)) name := by
  rintro ⟨o, s, ho, hs, hne⟩
  rw [Table.get?_mapEntries] at ho hs
  obtain ⟨a, ha, rfl⟩ := Option.map_eq_some_iff.mp ho
  obtain ⟨b, hb, rfl⟩ := Option.map_eq_some_iff.mp hs
  cases ha.symm.trans hb
  rw [Shared.object_addUsers, Shared.object_addUsers] at hne
  exact hne rfl

/-- What an interface refers to is a matter of its shapers and of the maps that it binds. -/
theorem refersAt_congr {c d : Catalogue} {i : Interface} (h : c.shapers i = d.shapers i) {vlan : Nat}
    {kind : ObjectKind} {name : String} : c.RefersAt i vlan kind name ↔ d.RefersAt i vlan kind name := by
  cases kind <;> simp only [RefersAt, h]

/-- Who uses the objects of a configuration changes none of their definitions. -/
theorem agrees_link (c : Catalogue) (is js : List Interface) : (c.link is).Agrees (c.link js) where
  platform := rfl
  policies name := not_redefined_mapEntries c.policies _ _ name
  profiles := (agrees_self c).profiles
  objects kind name := by
    cases kind <;> exact not_redefined_mapEntries _ _ _ name

end Catalogue

namespace Snapshot
variable {old new : Snapshot}

theorem affected_eq_nil (h : old.catalogue.Agrees new.catalogue) : affected old new = [] := by
  refine List.eq_nil_iff_forall_not_mem.mpr fun ifname hmem => ?_
  rcases mem_affected.mp hmem with ⟨hne, _⟩ | hmem | hmem | ⟨kind, hmem⟩
  · exact hne h.platform
  · obtain ⟨⟨name, s⟩, hs, _⟩ := List.mem_flatMap.mp hmem
    obtain ⟨hs, hany⟩ := List.mem_filter.mp hs
    obtain ⟨o, ho, hne⟩ := (Option.any_eq_true _ _).mp hany
    exact h.policies name ⟨o, s, ho, Table.get?_of_mem_entries hs, of_decide_eq_true hne⟩
  · obtain ⟨⟨name, q⟩, hq, _⟩ := List.mem_flatMap.mp hmem
    obtain ⟨hq, hany⟩ := List.mem_filter.mp hq
    obtain ⟨p, hp, hne⟩ := (Option.any_eq_true _ _).mp hany
    exact h.profiles name ⟨p, q, hp, Table.get?_of_mem_entries hq, of_decide_eq_true hne⟩
  · obtain ⟨name, hr, _⟩ := mem_redefinedUsersOf.mp hmem
    exact h.objects kind name hr

theorem rebuiltPorts_eq_nil (h : old.catalogue.Agrees new.catalogue) : rebuiltPorts old new = [] := by
  rw [rebuiltPorts, affected_eq_nil h]
  rfl

section Retain
variable {s : Snapshot} {names : List String} {name : String}

theorem port?_retain (s : Snapshot) (names : List String) (name : String) :
    (s.retain names).port? name = if name ∈ names then s.port? name else none := by
  rw [port?, retain, List.find?_filter]
  by_cases h : name ∈ names
  · rw [if_pos h, port?]
    refine congrArg (fun f => s.ports.find? f) (funext fun p => ?_)
    by_cases hp : p.name = name <;> simp [hp, h]
  · rw [if_neg h, List.find?_eq_none]
    intro p _ hp
    simp only [List.contains_iff_mem, decide_eq_true_eq] at hp
    exact h (hp.2 ▸ hp.1)

theorem directives_retain (s : Snapshot) (names : List String) (platform : LimitCapability) (p : Port) :
    directives (s.retain names).catalogue platform p = directives s.catalogue platform p :=
  directives_congr rfl rfl (Catalogue.shapers_congr fun name _ => policy?_retain s names name) fun _ _ => rfl

/-- The old snapshot of a membership change: its listed ports, with the objects of the new one. -/
def restricted (old new : Snapshot) (names : List String) : Snapshot :=
  (old.retain names).shareObjects (new.retain names)

theorem port?_restricted (old new : Snapshot) (names : List String) (name : String) :
    (restricted old new names).port? name = if name ∈ names then old.port? name else none :=
  port?_retain old names name

variable (hsame : ∀ name, name ∉ names → old.port? name = new.port? name)
include hsame

theorem addedPorts_restricted :
    addedPorts (restricted old new names) (new.retain names) = addedPorts old new := by
  have hports : (new.retain names).ports = new.ports.filter fun p => names.contains p.name := rfl
  rw [addedPorts, addedPorts, hports, List.filter_filter]
  refine List.filter_congr fun p hp => ?_
  have hkeeps : ∀ t : Snapshot, t.keeps p.interface = (t.port? p.name).any fun q => q.interface = p.interface :=
    fun _ => rfl
  rw [hkeeps, hkeeps, port?_restricted]
  by_cases hn : p.name ∈ names
  · simp [hn]
  · -- a port that is not listed was there as it is, so the full plan does not add it either
    have hp' : old.port? p.name = some p := (hsame _ hn).trans (port?_eq_some_iff.mpr ⟨hp, rfl⟩)
    simp [hn, hp']

theorem disabledPorts_restricted :
    disabledPorts (restricted old new names) (new.retain names) = disabledPorts old new := by
  have hports : (restricted old new names).ports =
      old.ports.filter fun p => names.contains p.name := rfl
  rw [disabledPorts, disabledPorts, addedPorts_restricted hsame, hports, List.filter_filter]
  congr 1
  · refine List.filterMap_congr fun p hp => ?_
    rw [port?_restricted]
    by_cases hn : p.name ∈ names
    · rw [if_pos hn]
    · obtain ⟨hp, hne⟩ := mem_addedPorts.mp hp
      exact absurd rfl (hne p ((hsame _ hn).trans (port?_eq_some_iff.mpr ⟨hp, rfl⟩)))
  · refine List.filter_congr fun p hp => ?_
    rw [has, has, port?_retain]
    by_cases hn : p.name ∈ names
    · simp [hn]
    · have hp' : new.port? p.name = some p := (hsame _ hn).symm.trans (port?_eq_some_iff.mpr ⟨hp, rfl⟩)
      simp [hn, hp']

end Retain

theorem Siblings.agrees (h : Siblings old new) : old.catalogue.Agrees new.catalogue := by
  obtain ⟨c, r, q, rfl, rfl⟩ := h
  exact c.agrees_link r.interfaces q.interfaces

theorem Siblings.shapers (h : Siblings old new) (i : Interface) :
    old.catalogue.shapers i = new.catalogue.shapers i := by
  obtain ⟨c, r, q, rfl, rfl⟩ := h
  rw [ofParts, ofParts, Catalogue.shapers_link, Catalogue.shapers_link]

/-- Whether two snapshots have the same objects, to which an interface refers alike in both. -/
structure Alike (old new : Snapshot) : Prop where
  agrees : old.catalogue.Agrees new.catalogue
  object? : ∀ kind name, (old.catalogue.object? kind name).map (fun o => (o.lines, o.deferrable)) =
    (new.catalogue.object? kind name).map fun o => (o.lines, o.deferrable)
  refersAt_iff : ∀ {i : Interface} {vlan : Nat} {kind : ObjectKind} {name : String},
    old.catalogue.RefersAt i vlan kind name ↔ new.catalogue.RefersAt i vlan kind name

theorem Siblings.alike (h : Siblings old new) : Alike old new where
  agrees := h.agrees
  object? := h.object?
  refersAt_iff {i _ _ _} := Catalogue.refersAt_congr (h.shapers i)

theorem Siblings.directives_eq (h : Siblings old new) (platform : LimitCapability) (p : Port) :
    directives old.catalogue platform p = directives new.catalogue platform p := by
  have hprofiles : old.catalogue.profiles = new.catalogue.profiles := by
    obtain ⟨c, r, q, rfl, rfl⟩ := h
    rfl
  exact directives_congr rfl rfl (h.shapers p.interface) fun _ _ => by rw [hprofiles]

theorem Siblings.commands_eq (h : Siblings old new) (platform : LimitCapability) (p : Port) :
    old.commands platform p = new.commands platform p := by
  rw [commands, commands, attachment, attachment, h.directives_eq]

end Snapshot

namespace Platform
variable {p : Platform}

theorem value_of_mem_switches {switch : PlatformSwitch} {v : Option Nat} (h : (switch, v) ∈ p.switches) :
    v = p.value switch := by
  rcases List.mem_cons.mp h with h | h
  · cases h
    rfl
  · cases List.mem_singleton.mp h
    rfl

theorem clearing_self (p : Platform) : clearing p p = [] := by
  refine List.eq_nil_iff_forall_not_mem.mpr fun i hi => ?_
  obtain ⟨⟨switch, v⟩, hv, h⟩ := List.mem_filterMap.mp hi
  cases hp : p.value switch <;> simp [value_of_mem_switches hv, hp] at h

theorem setting_self (p : Platform) : setting p p = [] := by
  refine List.eq_nil_iff_forall_not_mem.mpr fun i hi => ?_
  obtain ⟨⟨switch, v⟩, hv, h⟩ := List.mem_filterMap.mp hi
  simp [value_of_mem_switches hv] at h

end Platform

namespace Plan
open Snapshot NamedObject
variable {old new : Snapshot} {names : List String}

theorem not_provisions_of_portLine {platform : LimitCapability} {i : Instruction}
    (h : PortLine old new platform i) : ¬ i.Provisions := by
  intro hi
  cases h with
  | line _ hd =>
    cases hi
    exact unbind_not_mem_directives hd
  | _ => cases hi

theorem portSection_restricted (hsame : ∀ name, name ∉ names → old.port? name = new.port? name)
    (hagrees : old.catalogue.Agrees new.catalogue) (platform : LimitCapability) :
    (between (restricted old new names) (new.retain names) platform).portSection =
      (between old new platform).portSection := by
  have hself : (restricted old new names).catalogue.Agrees (new.retain names).catalogue :=
    Catalogue.agrees_self _
  have hlines : directives (new.retain names).catalogue platform = directives new.catalogue platform :=
    funext fun p => directives_retain new names platform p
  rw [portSection_between, portSection_between, disabledPorts_restricted hsame, addedPorts_restricted hsame,
    rebuiltPorts_eq_nil hself, rebuiltPorts_eq_nil hagrees, hlines]

def objectSection (old new : Snapshot) : List Instruction :=
  (old.catalogue.outgoing new.catalogue).flatMap deletion ++ (old.catalogue.incoming new.catalogue).flatMap creation

theorem provisions_of_mem_objectSection {i : Instruction} (hi : i ∈ objectSection old new) : i.Provisions := by
  rcases List.mem_append.mp hi with hi | hi
  · obtain ⟨x, _, hi⟩ := List.mem_flatMap.mp hi
    rcases mem_deletion.mp hi with rfl | ⟨m, _, b, _, rfl⟩
    · exact .remove _ _
    · exact .unbind _ _ _ _
  · obtain ⟨x, _, hi⟩ := List.mem_flatMap.mp hi
    obtain ⟨line, _, rfl⟩ := mem_creation.mp hi
    exact .define _ _ _

theorem body_eq_objectSection_append (hold : old.catalogue.Named) (hnew : new.catalogue.Named)
    (h : old.catalogue.platform = new.catalogue.platform) (platform : LimitCapability) :
    (between old new platform).body = objectSection old new ++ (between old new platform).portSection := by
  rw [body_eq, removals_between hold, definitions_between hnew, h, Platform.clearing_self, Platform.setting_self,
    List.nil_append, List.nil_append, objectSection]

theorem instructions_of_catalogue_eq (h : old.catalogue = new.catalogue) (hnew : new.catalogue.Named)
    (platform : LimitCapability) :
    (between old new platform).instructions = committed (between old new platform).portSection := by
  have hobjects : objectSection old new = [] := by
    rw [objectSection, h, Catalogue.outgoing_self, Catalogue.incoming_self]
    rfl
  rw [instructions_eq_committed, body_eq_objectSection_append (h ▸ hnew) hnew (congrArg _ h), hobjects,
    List.nil_append]

theorem instructions_restricted (hsame : ∀ name, name ∉ names → old.port? name = new.port? name)
    (hagrees : old.catalogue.Agrees new.catalogue) (hnew : new.catalogue.Named) (platform : LimitCapability) :
    (between (restricted old new names) (new.retain names) platform).instructions =
      committed (between old new platform).portSection := by
  have hnamed : (new.retain names).catalogue.Named :=
    ⟨hnew.markMaps, hnew.ingressMaps, hnew.egressMaps, hnew.actionGroups⟩
  have hcatalogue : (restricted old new names).catalogue = (new.retain names).catalogue := rfl
  rw [← portSection_restricted hsame hagrees]
  exact instructions_of_catalogue_eq hcatalogue hnamed platform

section Silent
variable {platform : LimitCapability} (h : (between old new platform).portSection = [])
include h

/-- A plan that tells ports nothing leaves every old port as it was. -/
theorem exists_kept_of_portSection_eq_nil {p : Port} (hp : p ∈ old.ports) :
    ∃ q ∈ new.ports, q.name = p.name ∧ q.interface = p.interface := by
  rw [portSection_between, List.append_eq_nil_iff, List.append_eq_nil_iff] at h
  by_contra hnone
  have hdisabled : p ∈ disabledPorts old new := by
    refine mem_disabledPorts.mpr ⟨hp, fun q hq heq => hnone ?_⟩
    obtain ⟨hqn, hname⟩ := port?_eq_some_iff.mp hq
    exact ⟨q, hqn, hname, heq.symm⟩
  -- a disabled port is told at least that
  have hlines := List.flatMap_eq_nil_iff.mp h.1.1 p hdisabled
  simp at hlines

/-- A plan that tells ports nothing brings no port that refers to an object. -/
theorem exists_had_of_portSection_eq_nil {q : Port} (hq : q ∈ new.ports) {kind : ObjectKind} {name : String}
    (hr : new.catalogue.Refers q.interface kind name) :
    ∃ p ∈ old.ports, p.name = q.name ∧ p.interface = q.interface := by
  rw [portSection_between, List.append_eq_nil_iff] at h
  by_contra hnone
  have hadded : q ∈ addedPorts old new := by
    refine mem_addedPorts.mpr ⟨hq, fun p hp heq => hnone ?_⟩
    obtain ⟨hpo, hname⟩ := port?_eq_some_iff.mp hp
    exact ⟨p, hpo, hname, heq⟩
  -- a port that is added is told every line that refers to an object
  obtain ⟨d, hd, _⟩ := (exists_refersTo_iff platform).mpr hr
  have hlines := List.flatMap_eq_nil_iff.mp h.2 q hadded
  rw [List.map_eq_nil_iff] at hlines
  rw [hlines] at hd
  cases hd

/-- A plan that tells ports nothing leaves every object held back, or not, as it was. -/
theorem deferred_eq_of_portSection_eq_nil (hold : old.Linked) (hnew : new.Linked) (hs : Alike old new)
    {kind : ObjectKind} {name : String} {o t : ObjectEntry} (ho : old.catalogue.object? kind name = some o)
    (ht : new.catalogue.object? kind name = some t) : o.deferred = t.deferred := by
  have hdeferrable : o.deferrable = t.deferrable := by
    have hsame := hs.object? kind name
    rw [ho, ht, Option.map_some, Option.map_some, Option.some.injEq, Prod.mk.injEq] at hsame
    exact hsame.2
  have husers : ∀ b, b ∈ o.users ↔ b ∈ t.users := by
    intro b
    rw [(hold.users kind name o ho).2 b, (hnew.users kind name t ht).2 b]
    constructor
    · rintro ⟨p, hp, hpb, hr⟩
      obtain ⟨q, hq, hname, hi⟩ := exists_kept_of_portSection_eq_nil h hp
      exact ⟨q, hq, hname.trans hpb, hi ▸ hs.refersAt_iff.mp hr⟩
    · rintro ⟨q, hq, hqb, hr⟩
      obtain ⟨p, hp, hname, hi⟩ := exists_had_of_portSection_eq_nil h hq ⟨b.vlan, hr⟩
      exact ⟨p, hp, hname.trans hqb, hi ▸ hs.refersAt_iff.mpr hr⟩
  have hempty : o.users.isEmpty = t.users.isEmpty := by
    rw [Bool.eq_iff_iff, List.isEmpty_iff, List.isEmpty_iff, List.eq_nil_iff_forall_not_mem,
      List.eq_nil_iff_forall_not_mem]
    exact forall_congr' fun b => not_congr (husers b)
  rw [ObjectEntry.deferred, ObjectEntry.deferred, hdeferrable, hempty]

/-- A plan that tells ports nothing has nothing to say of objects. -/
theorem objectSection_eq_nil_of_portSection_eq_nil (hold : old.Linked) (hnew : new.Linked) (hs : Alike old new) :
    objectSection old new = [] := by
  have hboth : ∀ kind name, (∃ o, old.catalogue.object? kind name = some o) ↔
      ∃ t, new.catalogue.object? kind name = some t := by
    intro kind name
    have hsame := congrArg Option.isSome (hs.object? kind name)
    rw [Option.isSome_map, Option.isSome_map] at hsame
    rw [← Option.isSome_iff_exists, ← Option.isSome_iff_exists, hsame]
  have hout : old.catalogue.outgoing new.catalogue = [] := by
    refine List.eq_nil_iff_forall_not_mem.mpr fun x hx => ?_
    obtain ⟨ho, hd, hgone⟩ := Catalogue.mem_outgoing.mp hx
    obtain ⟨t, ht⟩ := (hboth _ _).mp ⟨_, ho⟩
    rcases hgone t ht with hdt | ⟨hr, _⟩
    · rw [← deferred_eq_of_portSection_eq_nil h hold hnew hs ho ht, hd] at hdt
      cases hdt
    · exact hs.agrees.objects _ _ hr
  have hin : old.catalogue.incoming new.catalogue = [] := by
    refine List.eq_nil_iff_forall_not_mem.mpr fun x hx => ?_
    obtain ⟨ht, hd, hcame⟩ := Catalogue.mem_incoming.mp hx
    obtain ⟨o, ho⟩ := (hboth _ _).mpr ⟨_, ht⟩
    rcases hcame o ho with hdo | hr
    · rw [deferred_eq_of_portSection_eq_nil h hold hnew hs ho ht, hd] at hdo
      cases hdo
    · exact hs.agrees.objects _ _ hr
  rw [objectSection, hout, hin]
  rfl

end Silent

theorem forMembershipChange_eq {tree : Value} {a b : Membership} {before after : Snapshot}
    (hbefore : ofTree tree (some a) = .ok before) (hafter : ofTree tree (some b) = .ok after)
    (platform : LimitCapability) : forMembershipChange tree a b platform =
      .ok (between (restricted before after (Membership.changedPorts a b))
        (after.retain (Membership.changedPorts a b)) platform) := by
  simp only [forMembershipChange, hbefore, hafter]
  rfl

/-- The full plan between the snapshots of one tree under two memberships deals with objects, and
then does what the plan of the membership change does. It does nothing only if that does nothing,
and a port whose LAG stays is the same interface with the same commands. -/
theorem between_eq_append_forMembershipChange {tree : Value} {a b : Membership} {before after : Snapshot}
    (ha : a.Exclusive) (hb : b.Exclusive) (hbefore : ofTree tree (some a) = .ok before)
    (hafter : ofTree tree (some b) = .ok after) (platform : LimitCapability) :
    ∃ fast objects, forMembershipChange tree a b platform = .ok fast ∧
      (between before after platform).instructions = objects ++ fast.instructions ∧
      (∀ i ∈ objects, i.Provisions) ∧ (∀ i ∈ fast.instructions, ¬ i.Provisions) ∧
      ((between before after platform).instructions = [] ↔ fast.instructions = []) ∧
      ∀ ifname, ifname ∉ Membership.changedPorts a b →
        (before.port? ifname).map Port.interface = (after.port? ifname).map Port.interface ∧
        (before.port? ifname).map (before.commands platform) =
          (after.port? ifname).map (after.commands platform) := by
  have hsame : ∀ name, name ∉ Membership.changedPorts a b → before.port? name = after.port? name :=
    fun _ => port?_eq_of_not_mem_changedPorts ha hb hbefore hafter
  have hs := siblings_of_ofTree hbefore hafter
  have hold := (Read.tree hbefore).linked
  have hnew := (Read.tree hafter).linked
  have hobjects : (between before after platform).portSection = [] → objectSection before after = [] :=
    fun h => objectSection_eq_nil_of_portSection_eq_nil h hold hnew hs.alike
  have hfull : (between before after platform).instructions =
      objectSection before after ++ committed (between before after platform).portSection := by
    rw [instructions_eq_committed, body_eq_objectSection_append hold.named hnew.named hs.agrees.platform,
      committed_append hobjects]
  have hplan := forMembershipChange_eq hbefore hafter platform
  have hlines := instructions_restricted hsame hs.agrees hnew.named platform
  generalize between (restricted before after (Membership.changedPorts a b)) _ platform = fast at hplan hlines
  refine ⟨fast, objectSection before after, hplan, ?_, fun i hi => provisions_of_mem_objectSection hi,
    fun i hi => ?_, ?_, fun ifname hport => ?_⟩
  · rw [hfull, hlines]
  · rw [hlines] at hi
    rcases mem_of_mem_committed hi with hi | rfl
    · exact not_provisions_of_portLine (portLine_of_mem_portSection hi)
    · nofun
  · rw [hfull, hlines, List.append_eq_nil_iff, committed_eq_nil_iff]
    exact ⟨fun h => h.2, fun h => ⟨hobjects h, h⟩⟩
  · rw [hsame ifname hport]
    exact ⟨rfl, Option.map_congr fun p _ => hs.commands_eq platform p⟩

/-- The first port of a LAG brings the map that it binds, in the full plan alone. -/
theorem between_eq_append_forMembershipChange_firstMember :
    let tree := Manager.laggedTree [(Schema.ingressMap, "in")]
    let members := Membership.ofPorts [("dp0bond0", ["dp0s1"])]
    ∃ before after fast objects, ofTree tree (some .empty) = .ok before ∧ ofTree tree (some members) = .ok after ∧
      forMembershipChange tree .empty members .packets = .ok fast ∧
      (between before after .packets).instructions = objects ++ fast.instructions ∧
      .define .ingressMap "in" "complete" ∈ objects := by
  intro tree members
  have hdefines : (ofTree tree (some .empty)).toOption.any (fun before => (ofTree tree (some members)).toOption.any
      fun after => decide (.define .ingressMap "in" "complete" ∈ (between before after .packets).instructions)) =
        true := by decide +kernel
  obtain ⟨before, hbefore, hdefines⟩ := (Option.any_eq_true _ _).mp hdefines
  obtain ⟨after, hafter, hdefines⟩ := (Option.any_eq_true _ _).mp hdefines
  have hbefore := Outcome.eq_ok_of_toOption hbefore
  have hafter := Outcome.eq_ok_of_toOption hafter
  obtain ⟨fast, objects, hplan, heq, _, hfast, _⟩ := between_eq_append_forMembershipChange
    (by decide +kernel) (by decide +kernel) hbefore hafter .packets
  refine ⟨before, after, fast, objects, hbefore, hafter, hplan, heq, ?_⟩
  have hmem := of_decide_eq_true hdefines
  rw [heq] at hmem
  exact (List.mem_append.mp hmem).resolve_right fun h => hfast _ h (.define _ _ _)

end Plan
end QosControl
