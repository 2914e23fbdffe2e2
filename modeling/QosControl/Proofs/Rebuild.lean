import QosControl.Proofs.ProfileNumbers
import QosControl.Proofs.Stages

/-! # Which ports a plan rebuilds

A port that both snapshots have as it was is rebuilt exactly when the platform
parameters, a policy or global profile that it names, or an object that it refers to
has another definition. A port that is not as it was is disabled and added again.
-/
namespace QosControl

/-- The stream of a plan disables an interface and after that sends its lines in one piece. -/
def Plan.Rebuilds (plan : Plan) (ifname : String) (lines : List Instruction) : Prop :=
  ∃ before between after,
    plan.instructions = before ++ .port ifname .disable :: (between ++ lines ++ after)

/-- Whether both catalogues define a global profile of the name, and not alike. -/
def Catalogue.RedefinesProfile (a b : Catalogue) (name : String) : Prop :=
  ∃ p q, a.profiles.get? name = some p ∧ b.profiles.get? name = some q ∧ p ≠ q

namespace Snapshot
variable {old new : Snapshot}

/-- What makes a plan rebuild an interface that both snapshots have. -/
inductive Affects (old new : Snapshot) (i : Interface) : Prop
  | platform : old.catalogue.platform ≠ new.catalogue.platform → Affects old new i
  | policy (name : String) : name ∈ i.policies →
    Redefined old.catalogue.policies new.catalogue.policies name → Affects old new i
  | profile (name : String) : new.catalogue.Names i name →
    old.catalogue.RedefinesProfile new.catalogue name → Affects old new i
  | object (kind : ObjectKind) (name : String) : new.catalogue.Refers i kind name →
    old.catalogue.Redefines new.catalogue kind name → Affects old new i

/-- The users of the objects of one kind that have another definition. -/
def redefinedUsersOf (old new : Snapshot) : ObjectKind → List String
  | .markMap => redefinedUsers old.catalogue.markMaps new.catalogue.markMaps
  | .ingressMap => redefinedUsers old.catalogue.ingressMaps new.catalogue.ingressMaps
  | .egressMap => redefinedUsers old.catalogue.egressMaps new.catalogue.egressMaps
  | .actionGroup => redefinedUsers old.catalogue.actionGroups new.catalogue.actionGroups

theorem mem_affected {ifname : String} : ifname ∈ affected old new ↔
    (old.catalogue.platform ≠ new.catalogue.platform ∧ ifname ∈ new.names ∧ old.has ifname = true) ∨
    ifname ∈ repolicied old new ∨ ifname ∈ reprofiled old new ∨
    ∃ kind, ifname ∈ redefinedUsersOf old new kind := by
  have hplatform : ifname ∈ (if platformChanged old new then new.names.filter old.has else []) ↔
      old.catalogue.platform ≠ new.catalogue.platform ∧ ifname ∈ new.names ∧ old.has ifname = true := by
    by_cases h : old.catalogue.platform = new.catalogue.platform <;> simp [platformChanged, h]
  have hkinds : (∃ kind, ifname ∈ redefinedUsersOf old new kind) ↔
      ifname ∈ redefinedUsersOf old new .markMap ∨ ifname ∈ redefinedUsersOf old new .actionGroup ∨
      ifname ∈ redefinedUsersOf old new .ingressMap ∨ ifname ∈ redefinedUsersOf old new .egressMap := by
    constructor
    · rintro ⟨kind, h⟩
      cases kind <;> simp [h]
    · rintro (h | h | h | h)
      · exact ⟨_, h⟩
      · exact ⟨_, h⟩
      · exact ⟨_, h⟩
      · exact ⟨_, h⟩
  rw [affected, List.mem_eraseDups, hkinds, ← hplatform]
  simp only [List.mem_append, or_assoc, redefinedUsersOf]

theorem mem_redefinedUsers {α : Type} [DecidableEq α] [Provisioned α] {a b : Objects α} {ifname : String} :
    ifname ∈ redefinedUsers a b ↔ ∃ name, Redefined a b name ∧
      ∃ o, (b.get? name).map Shared.entry = some o ∧ ∃ u ∈ o.users, u.ifname = ifname := by
  simp only [redefinedUsers, List.mem_flatMap, List.mem_filter, Table.mem_entries_iff,
    redefined_eq_true_iff, List.mem_map]
  constructor
  · rintro ⟨⟨name, s⟩, ⟨hs, o, ho, hne⟩, u, hu, rfl⟩
    exact ⟨name, ⟨o, s, ho, hs, hne⟩, s.entry, by rw [hs]; rfl, u, hu, rfl⟩
  · rintro ⟨name, ⟨o, s, ho, hs, hne⟩, t, ht, u, hu, rfl⟩
    rw [hs] at ht
    cases ht
    exact ⟨(name, s), ⟨hs, o, ho, hne⟩, u, hu, rfl⟩

theorem mem_redefinedUsersOf {kind : ObjectKind} {ifname : String} :
    ifname ∈ redefinedUsersOf old new kind ↔ ∃ name, old.catalogue.Redefines new.catalogue kind name ∧
      ∃ o, new.catalogue.object? kind name = some o ∧ ∃ u ∈ o.users, u.ifname = ifname := by
  cases kind <;> exact mem_redefinedUsers

theorem exists_object?_of_redefines {a b : Catalogue} {kind : ObjectKind} {name : String}
    (h : a.Redefines b kind name) : ∃ o, b.object? kind name = some o := by
  cases kind <;> obtain ⟨_, s, _, hs, _⟩ := h <;> exact ⟨s.entry, by rw [Catalogue.object?, hs]; rfl⟩

theorem eq_of_mem_ports {s : Snapshot} {p q : Port} (hp : p ∈ s.ports) (hq : q ∈ s.ports)
    (h : p.name = q.name) : p = q :=
  List.inj_on_of_nodup_map s.distinct hp hq h

theorem mem_reprofiled_iff (hnew : new.Linked) {q : Port} (hq : q ∈ new.ports) :
    q.name ∈ reprofiled old new ↔ ∃ name, new.catalogue.Names q.interface name ∧
      old.catalogue.RedefinesProfile new.catalogue name := by
  have hindexed : ∀ name, (q.index.find? (.shared name)).isSome = true ↔
      new.catalogue.Names q.interface name ∧ new.catalogue.profiles.contains name = true := by
    intro name
    rw [hnew.index q hq, Catalogue.isSome_find?_profileIndex, Catalogue.mem_usedGlobals, hnew.order]
    exact ⟨fun h => h.2, fun h => ⟨h.2, h⟩⟩
  simp only [reprofiled, List.mem_flatMap, List.mem_filter, Table.mem_entries_iff, List.mem_map]
  constructor
  · rintro ⟨⟨name, g⟩, ⟨hg, hany⟩, p, ⟨hp, hi⟩, hpq⟩
    cases eq_of_mem_ports hp hq hpq
    cases ho : old.catalogue.profiles.get? name with
    | none => simp [ho] at hany
    | some o => exact ⟨name, ((hindexed name).mp hi).1, o, g, ho, hg, by simpa [ho] using hany⟩
  · rintro ⟨name, hn, o, g, ho, hg, hne⟩
    refine ⟨(name, g), ⟨hg, by simp [ho, hne]⟩, q, ⟨hq, ?_⟩, rfl⟩
    exact (hindexed name).mpr ⟨hn, Table.contains_iff.mpr ⟨g, hg⟩⟩

theorem mem_repolicied_iff (hnew : new.Linked) {q : Port} (hq : q ∈ new.ports) :
    q.name ∈ repolicied old new ↔ ∃ name ∈ q.interface.policies,
      Redefined old.catalogue.policies new.catalogue.policies name := by
  simp only [repolicied, List.mem_flatMap, List.mem_filter, Table.mem_entries_iff]
  constructor
  · rintro ⟨⟨name, s⟩, ⟨hs, hany⟩, hu⟩
    obtain ⟨p, hp, hpq, hn⟩ := (hnew.policyUsers name s hs q.name).mp hu
    cases eq_of_mem_ports hp hq hpq
    cases ho : old.catalogue.policies.get? name with
    | none => simp [ho] at hany
    | some o => exact ⟨name, hn, o, s, ho, hs, by simpa [ho] using hany⟩
  · rintro ⟨name, hn, o, s, ho, hs, hne⟩
    exact ⟨(name, s), ⟨hs, by simp [ho, hne]⟩, (hnew.policyUsers name s hs q.name).mpr ⟨q, hq, rfl, hn⟩⟩

/-- The affected names are those of the ports that something affects. -/
theorem mem_affected_iff (hnew : new.Linked) {q : Port} (hq : q ∈ new.ports) (hold : old.has q.name = true) :
    q.name ∈ affected old new ↔ Affects old new q.interface := by
  rw [mem_affected, mem_repolicied_iff hnew hq, mem_reprofiled_iff hnew hq]
  simp only [mem_redefinedUsersOf]
  constructor
  · rintro (⟨h, _⟩ | ⟨name, hn, h⟩ | ⟨name, hn, h⟩ | ⟨kind, name, h, o, ho, u, hu, hq'⟩)
    · exact .platform h
    · exact .policy name hn h
    · exact .profile name hn h
    · obtain ⟨p, hp, hpu, hr⟩ := ((hnew.users kind name o ho).2 u).mp hu
      cases eq_of_mem_ports hp hq (hpu.trans hq')
      exact .object kind name ⟨u.vlan, hr⟩ h
  · rintro (h | ⟨name, hn, h⟩ | ⟨name, hn, h⟩ | ⟨kind, name, ⟨vlan, hr⟩, h⟩)
    · exact .inl ⟨h, List.mem_map_of_mem hq, hold⟩
    · exact .inr (.inl ⟨name, hn, h⟩)
    · exact .inr (.inr (.inl ⟨name, hn, h⟩))
    · obtain ⟨o, ho⟩ := exists_object?_of_redefines h
      refine .inr (.inr (.inr ⟨kind, name, h, o, ho, ⟨q.name, vlan⟩, ?_, rfl⟩))
      exact ((hnew.users kind name o ho).2 _).mpr ⟨q, hq, rfl, hr⟩

theorem keeps_eq_true_iff {s : Snapshot} {i : Interface} :
    s.keeps i = true ↔ ∃ p, s.port? i.name = some p ∧ p.interface = i := by
  rw [keeps]
  cases s.port? i.name <;> simp

theorem has_eq_true_iff {s : Snapshot} {ifname : String} : s.has ifname = true ↔ ∃ p, s.port? ifname = some p :=
  Option.isSome_iff_exists

theorem mem_addedPorts {q : Port} :
    q ∈ addedPorts old new ↔ q ∈ new.ports ∧ ∀ p, old.port? q.name = some p → p.interface ≠ q.interface := by
  rw [addedPorts, List.mem_filter, Bool.not_eq_true', ← Bool.not_eq_true, keeps_eq_true_iff]
  simp [Port.name]

theorem mem_disabledPorts {p : Port} :
    p ∈ disabledPorts old new ↔ p ∈ old.ports ∧ ∀ q, new.port? p.name = some q → p.interface ≠ q.interface := by
  rw [disabledPorts, List.mem_append, List.mem_filterMap, List.mem_filter]
  constructor
  · rintro (⟨q, hq, hp⟩ | ⟨hp, h⟩)
    · obtain ⟨hq, hne⟩ := mem_addedPorts.mp hq
      obtain ⟨hpo, hpq⟩ := port?_eq_some_iff.mp hp
      refine ⟨hpo, fun r hr => ?_⟩
      obtain ⟨hr, hrp⟩ := port?_eq_some_iff.mp hr
      cases eq_of_mem_ports hr hq (hrp.trans hpq)
      exact hne p hp
    · refine ⟨hp, fun q hq => ?_⟩
      simp [has_eq_true_iff.mpr ⟨q, hq⟩] at h
  · rintro ⟨hp, h⟩
    cases hq : new.port? p.name with
    | none => exact .inr ⟨hp, by simp [has, hq]⟩
    | some q =>
      -- a port that is there in another form is reached through the one that is added for it
      obtain ⟨hqn, hqp⟩ := port?_eq_some_iff.mp hq
      refine .inl ⟨q, mem_addedPorts.mpr ⟨hqn, fun r hr => ?_⟩, port?_eq_some_iff.mpr ⟨hp, hqp.symm⟩⟩
      obtain ⟨hr, hrq⟩ := port?_eq_some_iff.mp hr
      cases eq_of_mem_ports hr hp (hrq.trans hqp)
      exact h q hq

/-- A port is neither disabled nor added when it is in both snapshots as it was. -/
theorem mem_rebuiltPorts {q : Port} : q ∈ rebuiltPorts old new ↔
    q ∈ new.ports ∧ q.name ∈ affected old new ∧ ∃ p, old.port? q.name = some p ∧ p.interface = q.interface := by
  rw [rebuiltPorts, List.mem_filterMap]
  simp only [List.mem_filter, Bool.and_eq_true, Bool.not_eq_true', ← Bool.not_eq_true,
    List.contains_iff_mem, List.mem_map]
  constructor
  · rintro ⟨name, ⟨ha, hadded, -⟩, hq⟩
    obtain ⟨hqn, rfl⟩ := port?_eq_some_iff.mp hq
    refine ⟨hqn, ha, ?_⟩
    by_contra hne
    refine hadded ⟨q, mem_addedPorts.mpr ⟨hqn, fun p hp heq => hne ⟨p, hp, heq⟩⟩, rfl⟩
  · rintro ⟨hq, ha, p, hp, heq⟩
    refine ⟨q.name, ⟨ha, ?_, ?_⟩, port?_eq_some_iff.mpr ⟨hq, rfl⟩⟩
    · rintro ⟨r, hr, hrq⟩
      obtain ⟨hr, hne⟩ := mem_addedPorts.mp hr
      cases eq_of_mem_ports hr hq hrq
      exact hne p hp heq
    · rintro ⟨r, hr, hrq⟩
      obtain ⟨hr, hne⟩ := mem_disabledPorts.mp hr
      obtain ⟨hp, hpq⟩ := port?_eq_some_iff.mp hp
      cases eq_of_mem_ports hr hp (hrq.trans hpq.symm)
      exact hne q (port?_eq_some_iff.mpr ⟨hq, hpq.symm⟩) heq

end Snapshot

namespace Plan
open Snapshot
variable {old new : Snapshot} {p q : Port} {ifname : String}

theorem rebuilds_of_body_eq (plan : Plan) {lines : List Instruction} (before between after : List Instruction)
    (h : plan.body = before ++ .port ifname .disable :: (between ++ lines ++ after)) :
    plan.Rebuilds ifname lines := by
  refine ⟨before, between, after ++ [.commit], ?_⟩
  rw [instructions_eq, h]
  simp

theorem rebuilds_of_changed (platform : LimitCapability) (hp : old.port? ifname = some p)
    (hq : new.port? ifname = some q) (hne : p.interface ≠ q.interface) :
    (between old new platform).Rebuilds ifname (new.attachment platform q) := by
  obtain ⟨hpo, rfl⟩ := port?_eq_some_iff.mp hp
  obtain ⟨hqn, hqp⟩ := port?_eq_some_iff.mp hq
  have hd : p ∈ disabledPorts old new := by
    refine mem_disabledPorts.mpr ⟨hpo, fun r hr => ?_⟩
    cases hq.symm.trans hr
    exact hne
  have ha : q ∈ addedPorts old new := by
    refine mem_addedPorts.mpr ⟨hqn, fun r hr => ?_⟩
    rw [hqp] at hr
    cases hp.symm.trans hr
    exact hne
  obtain ⟨d₁, d₂, hd⟩ := List.append_of_mem hd
  obtain ⟨a₁, a₂, ha⟩ := List.append_of_mem ha
  let plan := between old new platform
  let disables := fun ps : List Port => (ps.map (·.interface)).map Interface.disable
  have hdisabled : plan.disabled.map Interface.disable = disables d₁ ++ .port p.name .disable :: disables d₂ := by
    simp [plan, disables, between, hd, Interface.disable, Port.name]
  have hadded : plan.added.flatten = a₁.flatMap (new.attachment platform) ++ (new.attachment platform q ++
      a₂.flatMap (new.attachment platform)) := by
    simp [plan, between, ha, List.flatMap]
  refine rebuilds_of_body_eq plan (plan.removals ++ plan.definitions ++ disables d₁)
    (disables d₂ ++ plan.rebuiltLines ++ a₁.flatMap (new.attachment platform))
    (a₂.flatMap (new.attachment platform)) ?_
  rw [body_eq, portSection, hdisabled, hadded]
  simp only [List.append_assoc, List.cons_append]

theorem rebuilds_of_affected (platform : LimitCapability) (hp : old.port? ifname = some p)
    (hq : new.port? ifname = some q) (heq : p.interface = q.interface) (h : ifname ∈ affected old new) :
    (between old new platform).Rebuilds ifname (new.attachment platform q) := by
  obtain ⟨hqn, rfl⟩ := port?_eq_some_iff.mp hq
  have hr : q ∈ rebuiltPorts old new := mem_rebuiltPorts.mpr ⟨hqn, h, p, hp, heq⟩
  obtain ⟨r₁, r₂, hr⟩ := List.append_of_mem hr
  let plan := between old new platform
  let blocks := fun ps : List Port => ps.flatMap fun r => r.interface.disable :: new.attachment platform r
  have hrebuilt : plan.rebuiltLines = blocks r₁ ++ .port q.name .disable :: (new.attachment platform q ++
      blocks r₂) := by
    simp [plan, blocks, rebuiltLines, between, hr, Interface.disable, Port.name, List.flatMap_map]
  refine rebuilds_of_body_eq plan
    (plan.removals ++ plan.definitions ++ plan.disabled.map Interface.disable ++ blocks r₁)
    [] (blocks r₂ ++ plan.added.flatten) ?_
  rw [body_eq, portSection, hrebuilt]
  simp only [List.append_assoc, List.cons_append, List.nil_append]

/-- A port that both snapshots have as it was is disabled for nothing but what affects it. -/
theorem mem_affected_of_disable (hold : old.catalogue.Named) (hnew : new.catalogue.Named)
    (platform : LimitCapability) (hp : old.port? ifname = some p) (hq : new.port? ifname = some q)
    (heq : p.interface = q.interface)
    (h : .port ifname .disable ∈ (between old new platform).instructions) : ifname ∈ affected old new := by
  obtain ⟨stages⟩ := nonempty_stages hold hnew platform
  have hline := stages.portLine_of_mem (by simp) h
  cases hline with
  | disabled hr =>
    obtain ⟨hr, hne⟩ := mem_disabledPorts.mp hr
    obtain ⟨hpo, hpr⟩ := port?_eq_some_iff.mp hp
    cases eq_of_mem_ports hpo hr hpr
    exact absurd heq (hne q hq)
  | rebuilt hr => exact (mem_rebuiltPorts.mp hr).2.1
  | line _ hd => exact absurd hd disable_not_mem_directives

/-- What makes a plan rebuild a port that both snapshots have as it was. -/
theorem rebuilds_iff_affects (hold : old.catalogue.Named) (hnew : new.Linked) (platform : LimitCapability)
    (hp : old.port? ifname = some p) (hq : new.port? ifname = some q) (heq : p.interface = q.interface) :
    (between old new platform).Rebuilds ifname (new.attachment platform q) ↔
      Affects old new q.interface := by
  obtain ⟨hqn, rfl⟩ := port?_eq_some_iff.mp hq
  rw [← mem_affected_iff hnew hqn (has_eq_true_iff.mpr ⟨p, hp⟩)]
  constructor
  · rintro ⟨before, lines, after, h⟩
    exact mem_affected_of_disable hold hnew.named platform hp hq heq (by simp [h])
  · exact rebuilds_of_affected platform hp hq heq

end Plan
end QosControl
