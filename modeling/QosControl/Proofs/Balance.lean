import QosControl.Proofs.Ledger
import QosControl.Proofs.PortStream
import QosControl.Scenario

/-! # The stream of a plan keeps the ledger

A stream removes objects, defines objects and then configures ports. The position of a
removal in the stream is therefore known, and with it everything that came before: the
removals of other objects and the unbinding of this one.
-/
namespace QosControl

/-- What a stream between two snapshots does to the objects that are there. -/
structure Balanced (old new : Snapshot) (is : List Instruction) : Prop where
  /-- A removal hits an object that is there, and is the only one of this object. -/
  removed : ∀ before after kind name, is = before ++ .remove kind name :: after →
    old.catalogue.live.replay before kind name = true ∧ .remove kind name ∉ before ++ after
  /-- Right before a map goes it is unbound, once in each place that binds it. -/
  unbound : ∀ before after m name, is = before ++ .remove m.objectKind name :: after →
    ∃ rest, ∃ bs : List Binding, before = rest ++ bs.map (fun b => .port b.ifname (.unbind m name b.vlan)) ∧
      bs.Nodup ∧
      (∀ b, b ∈ bs ↔ ∃ p ∈ old.ports, p.name = b.ifname ∧ ⟨name, b.vlan⟩ ∈ p.interface.mapUses m) ∧
      ∀ ifname vlan, .port ifname (.unbind m name vlan) ∉ rest ++ after
  /-- The lines that define an object are in one piece, and are those of the new snapshot. -/
  defined : ∀ kind name line, .define kind name line ∈ is → ∃ o before after,
    new.catalogue.object? kind name = some o ∧ is = before ++ o.lines.map (.define kind name) ++ after ∧
      ∀ line, .define kind name line ∉ before ++ after
  /-- An object that something refers to is not removed. -/
  kept : ∀ q ∈ new.ports, ∀ kind name o, new.catalogue.Refers q.interface kind name →
    new.catalogue.object? kind name = some o → .remove kind name ∉ is
  /-- A map is there when a port binds it. -/
  bound : ∀ before after ifname m name vlan o, is = before ++ .port ifname (.bind m name vlan) :: after →
    new.catalogue.object? m.objectKind name = some o →
      old.catalogue.live.replay before m.objectKind name = true
  /-- In the end the live objects of the new snapshot are there. -/
  final : ∀ kind name, kind ≠ .markMap →
    old.catalogue.live.replay is kind name = new.catalogue.live kind name

/-- Whether no instruction of a list defines or removes an object. -/
def Idle (is : List Instruction) : Prop := ∀ i ∈ is, ∀ kind name, ¬ i.Touches kind name

theorem Idle.replay {is : List Instruction} (h : Idle is) (l : Ledger) : l.replay is = l :=
  funext fun _ => funext fun _ => Ledger.replay_of_not_touches fun i hi => h i hi _ _

theorem Idle.remove_not_mem {is : List Instruction} (h : Idle is) {kind : ObjectKind} {name : String} :
    .remove kind name ∉ is := fun hi => h _ hi kind name (.inl rfl)

theorem Idle.define_not_mem {is : List Instruction} (h : Idle is) {kind : ObjectKind} {name line : String} :
    .define kind name line ∉ is := fun hi => h _ hi kind name (.inr ⟨line, rfl⟩)

namespace NamedObject
variable {xs : List NamedObject} {kind : ObjectKind} {name : String}

theorem idle_unbinding (x : NamedObject) : Idle x.unbinding := fun _ hi _ _ => not_touches_unbinding hi

theorem remove_mem_deletions : .remove kind name ∈ xs.flatMap deletion ↔ (kind, name) ∈ xs.map key := by
  simp only [List.mem_flatMap, List.mem_map]
  constructor
  · rintro ⟨x, hx, h⟩
    exact ⟨x, hx, key_eq_of_touches_deletion h (.inl rfl)⟩
  · rintro ⟨x, hx, hk⟩
    cases hk
    exact ⟨x, hx, mem_deletion.mpr (.inl rfl)⟩

theorem define_not_mem_deletions {line : String} : .define kind name line ∉ xs.flatMap deletion := by
  intro h
  obtain ⟨x, _, h⟩ := List.mem_flatMap.mp h
  rcases mem_deletion.mp h with h | ⟨_, _, _, _, h⟩ <;> cases h

theorem remove_not_mem_creations : .remove kind name ∉ xs.flatMap creation := by
  intro h
  obtain ⟨x, _, h⟩ := List.mem_flatMap.mp h
  obtain ⟨_, _, h⟩ := mem_creation.mp h
  cases h

theorem key_mem_of_define_mem_creations {line : String} (h : .define kind name line ∈ xs.flatMap creation) :
    (kind, name) ∈ xs.map key := by
  obtain ⟨x, hx, h⟩ := List.mem_flatMap.mp h
  exact List.mem_map.mpr ⟨x, hx, key_eq_of_touches_creation h (.inr ⟨line, rfl⟩)⟩

theorem key_mem_of_unbind_mem_deletions {ifname : String} {m : PortMapKind} {vlan : Nat}
    (h : .port ifname (.unbind m name vlan) ∈ xs.flatMap deletion) : (m.objectKind, name) ∈ xs.map key := by
  obtain ⟨x, hx, h⟩ := List.mem_flatMap.mp h
  rcases mem_deletion.mp h with h | ⟨n, hn, b, _, h⟩ <;> cases h
  exact List.mem_map.mpr ⟨x, hx, by rw [key, ObjectKind.objectKind_of_portMap? hn]⟩

theorem exists_split (hxs : (xs.map key).Nodup) (h : (kind, name) ∈ xs.map key) :
    ∃ pre x post, xs = pre ++ x :: post ∧ x.key = (kind, name) ∧
      (kind, name) ∉ pre.map key ∧ (kind, name) ∉ post.map key := by
  obtain ⟨x, hx, hk⟩ := List.mem_map.mp h
  obtain ⟨pre, post, rfl⟩ := List.append_of_mem hx
  rw [List.map_append, List.map_cons, hk, List.nodup_append] at hxs
  obtain ⟨_, hpost, hdisjoint⟩ := hxs
  refine ⟨pre, x, post, rfl, hk, fun hpre => ?_, (List.nodup_cons.mp hpost).1⟩
  exact hdisjoint _ hpre _ List.mem_cons_self rfl

end NamedObject

namespace Plan
open Snapshot NamedObject

namespace Stages
variable {old new : Snapshot} {platform : LimitCapability} {is : List Instruction}
  (s : Stages old new platform is)
include s

theorem idle_clearing : Idle s.clearing := by
  intro i hi kind name h
  obtain ⟨_, rfl⟩ := s.clears i hi
  rcases h with h | ⟨_, h⟩ <;> cases h

theorem idle_setting : Idle s.setting := by
  intro i hi kind name h
  obtain ⟨_, _, rfl⟩ := s.sets i hi
  rcases h with h | ⟨_, h⟩ <;> cases h

theorem idle_ports : Idle s.ports := by
  intro i hi kind name h
  cases s.configures i hi <;> rcases h with h | ⟨_, h⟩ <;> cases h

theorem not_unbind {i : Instruction} (h : i ∈ s.clearing ∨ i ∈ s.setting ∨
    i ∈ (old.catalogue.incoming new.catalogue).flatMap creation ∨ i ∈ s.ports) {ifname : String}
    {m : PortMapKind} {name : String} {vlan : Nat} : i ≠ .port ifname (.unbind m name vlan) := by
  rintro rfl
  rcases h with h | h | h | h
  · obtain ⟨_, h⟩ := s.clears _ h
    cases h
  · obtain ⟨_, _, h⟩ := s.sets _ h
    cases h
  · obtain ⟨x, _, h⟩ := List.mem_flatMap.mp h
    obtain ⟨_, _, h⟩ := mem_creation.mp h
    cases h
  · cases s.configures _ h with
    | line _ hd => exact unbind_not_mem_directives hd

/-- A removal stands among those of the outgoing objects, after the unbinding of its own. -/
theorem exists_of_remove {before after : List Instruction} {kind : ObjectKind} {name : String}
    (h : is = before ++ .remove kind name :: after) :
    ∃ pre x post, old.catalogue.outgoing new.catalogue = pre ++ x :: post ∧ x.key = (kind, name) ∧
      (kind, name) ∉ pre.map key ∧ (kind, name) ∉ post.map key ∧ .remove kind name ∉ before ++ after ∧
      before = s.clearing ++ pre.flatMap deletion ++ x.unbinding ∧
      after = post.flatMap deletion ++ s.setting ++
        (old.catalogue.incoming new.catalogue).flatMap creation ++ s.ports := by
  have hmem : .remove kind name ∈ is := by simp [h]
  rw [s.eq] at hmem
  simp only [List.mem_append, or_assoc] at hmem
  have hkey : (kind, name) ∈ (old.catalogue.outgoing new.catalogue).map key := by
    rcases hmem with hi | hi | hi | hi | hi
    · exact absurd hi s.idle_clearing.remove_not_mem
    · exact remove_mem_deletions.mp hi
    · exact absurd hi s.idle_setting.remove_not_mem
    · exact absurd hi remove_not_mem_creations
    · exact absurd hi s.idle_ports.remove_not_mem
  obtain ⟨pre, x, post, hout, hk, hpre, hpost⟩ := exists_split (Catalogue.nodup_outgoing _ _) hkey
  cases hk
  have hbefore : .remove x.kind x.name ∉ s.clearing ++ pre.flatMap deletion ++ x.unbinding := by
    simp only [List.mem_append, remove_mem_deletions]
    rintro ((hi | hi) | hi)
    · exact s.idle_clearing.remove_not_mem hi
    · exact hpre hi
    · exact (idle_unbinding x).remove_not_mem hi
  have hafter : .remove x.kind x.name ∉ post.flatMap deletion ++ s.setting ++
      (old.catalogue.incoming new.catalogue).flatMap creation ++ s.ports := by
    simp only [List.mem_append, remove_mem_deletions]
    rintro (((hi | hi) | hi) | hi)
    · exact hpost hi
    · exact s.idle_setting.remove_not_mem hi
    · exact remove_not_mem_creations hi
    · exact s.idle_ports.remove_not_mem hi
  -- the removal is on neither side of this place, so this is the place that was given
  have heq := s.eq.symm.trans h
  rw [hout, List.flatMap_append, List.flatMap_cons, deletion] at heq
  simp only [List.append_assoc, List.cons_append, List.nil_append] at heq hbefore hafter ⊢
  rw [← List.append_assoc, ← List.append_assoc] at heq
  obtain ⟨rfl, _, rfl⟩ := (List.append_cons_inj_of_notMem (by simpa using hbefore) hafter).mp heq
  refine ⟨pre, x, post, hout, rfl, hpre, hpost, ?_, by simp, by simp⟩
  exact fun hi => (List.mem_append.mp hi).elim (by simpa using hbefore) hafter

theorem replay_at_remove {before after : List Instruction} {kind : ObjectKind} {name : String}
    (h : is = before ++ .remove kind name :: after) :
    old.catalogue.live.replay before kind name = true ∧ .remove kind name ∉ before ++ after := by
  obtain ⟨pre, x, post, hout, hk, hpre, _, honce, rfl, _⟩ := s.exists_of_remove h
  cases hk
  obtain ⟨ho, hd, _⟩ := Catalogue.mem_outgoing.mp (hout ▸ List.mem_append_right pre List.mem_cons_self)
  have hlive : old.catalogue.live x.kind x.name = true := Catalogue.live_eq_true_iff.mpr ⟨_, ho, hd⟩
  refine ⟨?_, honce⟩
  rw [Ledger.replay_append, Ledger.replay_append, s.idle_clearing.replay, (idle_unbinding x).replay,
    replay_deletions, hlive]
  simpa using hpre

theorem unbinds_before_remove (hold : old.Linked) {before after : List Instruction} {m : PortMapKind}
    {name : String} (h : is = before ++ .remove m.objectKind name :: after) :
    ∃ rest, ∃ bs : List Binding, before = rest ++ bs.map (fun b => .port b.ifname (.unbind m name b.vlan)) ∧
      bs.Nodup ∧
      (∀ b, b ∈ bs ↔ ∃ p ∈ old.ports, p.name = b.ifname ∧ ⟨name, b.vlan⟩ ∈ p.interface.mapUses m) ∧
      ∀ ifname vlan, .port ifname (.unbind m name vlan) ∉ rest ++ after := by
  obtain ⟨pre, x, post, hout, hk, hpre, hpost, _, rfl, rfl⟩ := s.exists_of_remove h
  obtain ⟨kind, n, o⟩ := x
  obtain ⟨rfl, rfl⟩ : kind = m.objectKind ∧ n = name := Prod.mk.inj hk
  obtain ⟨ho, _, _⟩ := Catalogue.mem_outgoing.mp (hout ▸ List.mem_append_right pre List.mem_cons_self)
  obtain ⟨hnodup, husers⟩ := hold.users _ _ _ ho
  refine ⟨s.clearing ++ pre.flatMap deletion, o.users, ?_, hnodup, fun b => ?_, ?_⟩
  · simp only [unbinding, PortMapKind.portMap?_objectKind]
  · rw [husers b]
    cases m <;> rfl
  · intro ifname vlan hi
    simp only [List.mem_append] at hi
    rcases hi with (hi | hi) | ((hi | hi) | hi) | hi
    · exact s.not_unbind (.inl hi) rfl
    · exact hpre (key_mem_of_unbind_mem_deletions hi)
    · exact hpost (key_mem_of_unbind_mem_deletions hi)
    · exact s.not_unbind (.inr (.inl hi)) rfl
    · exact s.not_unbind (.inr (.inr (.inl hi))) rfl
    · exact s.not_unbind (.inr (.inr (.inr hi))) rfl

/-- An object that comes is defined in one piece, and nothing after that touches it. -/
theorem exists_of_incoming {x : NamedObject} (hx : x ∈ old.catalogue.incoming new.catalogue) :
    ∃ before after, is = before ++ x.creation ++ after ∧ (∀ line, .define x.kind x.name line ∉ before) ∧
      ∀ i ∈ after, ¬ i.Touches x.kind x.name := by
  obtain ⟨pre, post, hin⟩ := List.append_of_mem hx
  have hnodup := Catalogue.nodup_incoming old.catalogue new.catalogue
  rw [hin, List.map_append, List.map_cons, List.nodup_append] at hnodup
  obtain ⟨_, hpost, hdisjoint⟩ := hnodup
  refine ⟨s.clearing ++ (old.catalogue.outgoing new.catalogue).flatMap deletion ++ s.setting ++
    pre.flatMap creation, post.flatMap creation ++ s.ports, ?_, fun line hi => ?_, fun i hi ht => ?_⟩
  · refine s.eq.trans ?_
    rw [hin, List.flatMap_append, List.flatMap_cons]
    simp only [List.append_assoc]
  · simp only [List.mem_append] at hi
    rcases hi with ((hi | hi) | hi) | hi
    · exact s.idle_clearing.define_not_mem hi
    · exact define_not_mem_deletions hi
    · exact s.idle_setting.define_not_mem hi
    · exact hdisjoint _ (key_mem_of_define_mem_creations hi) _ List.mem_cons_self rfl
  · rcases List.mem_append.mp hi with hi | hi
    · obtain ⟨y, hy, hi⟩ := List.mem_flatMap.mp hi
      have hk : y.key = x.key := key_eq_of_touches_creation hi ht
      exact (List.nodup_cons.mp hpost).1 (hk ▸ List.mem_map_of_mem hy)
    · exact s.idle_ports i hi _ _ ht

theorem exists_of_define {kind : ObjectKind} {name line : String} (h : .define kind name line ∈ is) :
    ∃ o before after, new.catalogue.object? kind name = some o ∧
      is = before ++ o.lines.map (.define kind name) ++ after ∧
      ∀ line, .define kind name line ∉ before ++ after := by
  rw [s.eq] at h
  simp only [List.mem_append, or_assoc] at h
  have hkey : (kind, name) ∈ (old.catalogue.incoming new.catalogue).map key := by
    rcases h with hi | hi | hi | hi | hi
    · exact absurd hi s.idle_clearing.define_not_mem
    · exact absurd hi define_not_mem_deletions
    · exact absurd hi s.idle_setting.define_not_mem
    · exact key_mem_of_define_mem_creations hi
    · exact absurd hi s.idle_ports.define_not_mem
  obtain ⟨x, hx, hk⟩ := List.mem_map.mp hkey
  cases hk
  obtain ⟨before, after, his, hbefore, hafter⟩ := s.exists_of_incoming hx
  refine ⟨x.entry, before, after, (Catalogue.mem_incoming.mp hx).1, his, fun line hi => ?_⟩
  rcases List.mem_append.mp hi with hi | hi
  · exact hbefore line hi
  · exact hafter _ hi (.inr ⟨line, rfl⟩)

/-- An object that neither goes nor comes is not touched. -/
theorem not_touches {kind : ObjectKind} {name : String}
    (hout : (kind, name) ∉ (old.catalogue.outgoing new.catalogue).map key)
    (hin : (kind, name) ∉ (old.catalogue.incoming new.catalogue).map key) :
    ∀ i ∈ is, ¬ i.Touches kind name := by
  intro i hi ht
  rw [s.eq] at hi
  simp only [List.mem_append, List.mem_flatMap, or_assoc] at hi
  rcases hi with hi | ⟨x, hx, hi⟩ | hi | ⟨x, hx, hi⟩ | hi
  · exact s.idle_clearing i hi _ _ ht
  · exact hout (List.mem_map.mpr ⟨x, hx, key_eq_of_touches_deletion hi ht⟩)
  · exact s.idle_setting i hi _ _ ht
  · exact hin (List.mem_map.mpr ⟨x, hx, key_eq_of_touches_creation hi ht⟩)
  · exact s.idle_ports i hi _ _ ht

theorem remove_not_mem {kind : ObjectKind} {name : String} {o : ObjectEntry}
    (ho : new.catalogue.object? kind name = some o) (husers : o.users ≠ []) : .remove kind name ∉ is := by
  intro h
  obtain ⟨before, after, h⟩ := List.append_of_mem h
  obtain ⟨pre, x, post, hout, hk, _⟩ := s.exists_of_remove h
  cases hk
  obtain ⟨_, _, hgone⟩ := Catalogue.mem_outgoing.mp (hout ▸ List.mem_append_right pre List.mem_cons_self)
  rcases hgone o ho with hd | ⟨_, hu⟩
  · simp [ObjectEntry.deferred, husers] at hd
  · exact husers hu

/-- Whatever of the lines of ports has passed, the live objects of the new snapshot are there. -/
theorem replay_eq_live {kind : ObjectKind} (hkind : kind ≠ .markMap) (name : String) {ports : List Instruction}
    (hports : Idle ports) :
    old.catalogue.live.replay (s.front ++ ports) kind name = new.catalogue.live kind name := by
  rw [front, Ledger.replay_append, Ledger.replay_append, Ledger.replay_append, Ledger.replay_append,
    s.idle_clearing.replay, s.idle_setting.replay, hports.replay]
  exact Catalogue.replay_live _ _ hkind

/-- Only the lines of ports bind maps, and only those that a port carries. -/
theorem exists_of_bind {before after : List Instruction} {ifname : String} {m : PortMapKind} {name : String}
    {vlan : Nat} (h : is = before ++ .port ifname (.bind m name vlan) :: after) :
    ∃ ports, before = s.front ++ ports ∧ Idle ports ∧ ∃ q ∈ new.ports, ⟨name, vlan⟩ ∈ q.interface.mapUses m := by
  have hbind : ∀ k n v, PortDirective.bind m name vlan ≠ .unbind k n v := fun _ _ _ => nofun
  obtain ⟨ports, hbefore, hports⟩ := exists_append_of_not_mem (s.port_not_mem_front hbind) (s.eq.symm.trans h)
  have hidle : Idle ports := fun i hi => s.idle_ports i (hports ▸ List.mem_append_left _ hi)
  refine ⟨ports, hbefore, hidle, ?_⟩
  have hline := s.portLine_of_mem hbind (h ▸ List.mem_append_right before List.mem_cons_self)
  generalize hi : Instruction.port ifname (.bind m name vlan) = i at hline
  cases hline with
  | line hq hd =>
    cases hi
    exact ⟨_, hq.elim (fun hq => (mem_rebuiltPorts.mp hq).1) fun hq => (mem_addedPorts.mp hq).1,
      bind_mem_directives.mp hd⟩
  | _ => cases hi

end Stages

/-- The stream of a plan between two snapshots keeps the ledger of shared objects. -/
theorem balanced_between {old new : Snapshot} (hold : old.Read) (hnew : new.Read) (platform : LimitCapability) :
    Balanced old new (between old new platform).instructions := by
  have hused : ∀ q ∈ new.ports, ∀ kind name o, new.catalogue.Refers q.interface kind name →
      new.catalogue.object? kind name = some o → o.users ≠ [] := by
    rintro q hq kind name o ⟨vlan, hr⟩ ho hnil
    have hmem : ⟨q.name, vlan⟩ ∈ o.users := ((hnew.linked.users kind name o ho).2 _).mpr ⟨q, hq, rfl, hr⟩
    simp [hnil] at hmem
  obtain ⟨s⟩ := nonempty_stages hold.linked.named hnew.linked.named platform
  refine {
    removed := fun before after kind name h => s.replay_at_remove h
    unbound := fun before after m name h => s.unbinds_before_remove hold.linked h
    defined := fun kind name line h => s.exists_of_define h
    kept := fun q hq kind name o hr ho => s.remove_not_mem ho (hused q hq kind name o hr ho)
    bound := ?_
    final := ?_ }
  · intro before after ifname m name vlan o h ho
    obtain ⟨ports, rfl, hports, q, hq, hu⟩ := s.exists_of_bind h
    have hr : new.catalogue.Refers q.interface m.objectKind name := ⟨vlan, by cases m <;> exact hu⟩
    rw [s.replay_eq_live (by cases m <;> simp [PortMapKind.objectKind]) name hports]
    refine Catalogue.live_eq_true_iff.mpr ⟨o, ho, ?_⟩
    simp [ObjectEntry.deferred, hused q hq _ _ o hr ho]
  · intro kind name hkind
    have hlive := s.replay_eq_live hkind name s.idle_ports
    rwa [Stages.front, ← s.eq] at hlive

/-- A port that carries the given maps, and an ingress map beside it. -/
def mapped (maps : List (String × String)) : Snapshot :=
  orEmpty (Scenario.tree { Scenario.empty with
    policies := [Scenario.simplePolicy "p1" "1Gbit" "prof" "1Gbit"]
    ingressMaps := [Scenario.ingressMap "in" "voice" 1]
    dscpGroups := [Scenario.dscpGroup "voice" ["46"]]
    ports := [Scenario.port "dp0s1" "p1" maps] }) none

/-- A map that loses its last binding is unbound and removed. -/
theorem balanced_between_unbound :
    let stream := (between (mapped [(Schema.ingressMap, "in")]) (mapped []) .packets).instructions
    [.port "dp0s1" (.unbind .ingress "in" 0), .remove .ingressMap "in"] <+: stream ∧
      Balanced (mapped [(Schema.ingressMap, "in")]) (mapped []) stream :=
  ⟨by decide +kernel, balanced_between (read_orEmpty _ _) (read_orEmpty _ _) .packets⟩

end Plan
end QosControl
