import QosControl.Proofs.Tables
import QosControl.Snapshot

/-! # Configurations that pass the check

A configuration passes if it breaks no rule. Then every policy that an interface names
is defined, and so is the profile of every pipe of every shaper that drives a subport.
-/
namespace QosControl

namespace Shaper
variable {s : Shaper} {globals : Profiles} {path : String}

theorem defines_eq_true_iff {name : String} : s.defines globals name = true ↔
    (∃ p, s.localProfile? name = some p) ∨ globals.contains name = true := by
  rw [defines, Bool.or_eq_true, Option.isSome_iff_exists]

theorem defaultFailures_eq_nil_iff : s.defaultFailures globals path = [] ↔
    s.defaultProfile ≠ "" ∧ s.defines globals s.defaultProfile = true := by
  unfold defaultFailures
  split
  next h => simp [h]
  next h => by_cases hd : s.defines globals s.defaultProfile = true <;> simp [h, hd]

theorem defines_of_classFailures {c : RuleClass} (h : s.classFailures globals path c = []) :
    s.defines globals c.profile = true := by
  obtain ⟨_, h⟩ := List.append_eq_nil_iff.mp h
  by_contra hc
  simp [hc] at h

/-- A shaper that breaks no rule has a profile for each of its pipes. -/
theorem defines_of_failures (h : s.failures globals path = []) {name : String}
    (hn : name ∈ s.pipes.map (·.2)) : s.defines globals name = true := by
  rw [failures, List.append_eq_nil_iff, List.append_eq_nil_iff, List.append_eq_nil_iff] at h
  obtain ⟨⟨⟨hdefault, _⟩, _⟩, hclasses⟩ := h
  rw [pipes, List.map_cons, List.map_map] at hn
  rcases List.mem_cons.mp hn with rfl | hn
  · exact (defaultFailures_eq_nil_iff.mp hdefault).2
  · obtain ⟨c, hc, rfl⟩ := List.mem_map.mp hn
    exact defines_of_classFailures (List.flatMap_eq_nil_iff.mp hclasses c hc)

theorem defines_trunk {name : String} (hn : name ∈ trunk.pipes.map (·.2)) :
    trunk.defines globals name = true := by
  have hname : name = trunkProfile := List.mem_singleton.mp hn
  subst hname
  exact defines_eq_true_iff.mpr (.inl ⟨Profile.plain trunkProfile, rfl⟩)

end Shaper

namespace Catalogue
variable {c : Catalogue} {i : Interface}

/-- The shapers of an interface are the built-in one and those of the policies it names. -/
theorem shaper_of_mem_shapers {x : Subport × Shaper} (hx : x ∈ c.shapers i) :
    x.2 = Shaper.trunk ∨
      ∃ name ∈ i.policies, ∃ s, c.policies.get? name = some s ∧ s.object.shaper = x.2 := by
  obtain ⟨subport, hsub, hs⟩ := List.mem_filterMap.mp hx
  obtain ⟨shaper, hshaper, rfl⟩ := Option.map_eq_some_iff.mp hs
  cases hp : subport.policy with
  | none =>
    simp only [shaper?, hp, Option.some.injEq] at hshaper
    exact .inl hshaper.symm
  | some name =>
    simp only [shaper?, hp, policy?, Option.map_map] at hshaper
    obtain ⟨s, hs, hobject⟩ := Option.map_eq_some_iff.mp hshaper
    exact .inr ⟨name, List.mem_filterMap.mpr ⟨subport, hsub, hp⟩, s, hs, hobject⟩

theorem shapers_congr {d : Catalogue} (h : ∀ name ∈ i.policies, c.policy? name = d.policy? name) :
    c.shapers i = d.shapers i := by
  refine List.filterMap_congr fun subport hsub => ?_
  cases hp : subport.policy with
  | none => simp only [shaper?, hp]
  | some name => simp only [shaper?, hp, h name (List.mem_filterMap.mpr ⟨subport, hsub, hp⟩)]

/-- The rules that the objects of a catalogue break, whatever ports there are. -/
def failures (c : Catalogue) : List CheckFailure :=
  (c.policies.values.flatMap fun p => p.object.failures c.profiles) ++
  (c.profiles.values.flatMap fun p => p.failures s!"policy/qos/profile/{p.name}") ++
  c.actionGroups.values.flatMap fun g => g.object.failures

end Catalogue

namespace Snapshot
variable {s : Snapshot}

theorem check_eq_ok_iff : s.check = .ok () ↔ s.failures = [] := by
  unfold check
  cases hf : s.failures with
  | nil => simp
  | cons f fs => simp

theorem mem_sortedPorts {p : Port} : p ∈ s.sortedPorts ↔ p ∈ s.ports := by
  have hnames : ((s.ports.map fun q => (q.name, q)).map (·.1)).Nodup := by
    rw [List.map_map]
    exact s.distinct
  rw [sortedPorts, Table.mem_values_iff]
  constructor
  · rintro ⟨name, hp⟩
    obtain ⟨q, hq, heq⟩ := List.mem_map.mp (Table.mem_of_get?_ofList hp)
    cases heq
    exact hq
  · intro hp
    have hentry : (p.name, p) ∈ s.ports.map fun q => (q.name, q) := List.mem_map_of_mem hp
    exact ⟨p.name, Table.get?_ofList_of_mem hnames hentry⟩

theorem portFailures_eq_nil_iff {c : Catalogue} {p : Port} :
    portFailures c p = [] ↔ ∀ name ∈ p.interface.policies, c.policies.contains name = true := by
  rw [portFailures, List.flatMap_eq_nil_iff]
  refine forall_congr' fun name => forall_congr' fun _ => ?_
  by_cases hc : c.policies.contains name = true <;> simp [hc]

/-- Whether every policy that a port names is defined. -/
def PoliciesDefined (s : Snapshot) : Prop :=
  ∀ p ∈ s.ports, ∀ name ∈ p.interface.policies, s.catalogue.policies.contains name = true

instance (s : Snapshot) : Decidable s.PoliciesDefined :=
  inferInstanceAs (Decidable (∀ p ∈ s.ports, ∀ name ∈ p.interface.policies, _ = true))

/-- A configuration passes if its objects break no rule and its ports name no policy that is not there. -/
theorem check_eq_ok_iff_policiesDefined : s.check = .ok () ↔ s.catalogue.failures = [] ∧ s.PoliciesDefined := by
  have hsplit : s.failures = s.catalogue.failures ++ s.sortedPorts.flatMap (portFailures s.catalogue) := rfl
  rw [check_eq_ok_iff, hsplit, List.append_eq_nil_iff, List.flatMap_eq_nil_iff]
  refine and_congr_right fun _ => forall_congr' fun p => ?_
  rw [mem_sortedPorts, portFailures_eq_nil_iff]

theorem contains_of_check (h : s.check = .ok ()) {p : Port} (hp : p ∈ s.ports) {name : String}
    (hn : name ∈ p.interface.policies) : s.catalogue.policies.contains name = true :=
  (check_eq_ok_iff_policiesDefined.mp h).2 p hp name hn

/-- In a configuration that passes, a shaper is the built-in one or breaks no rule. -/
theorem shaper_of_check (h : s.check = .ok ()) {i : Interface} {x : Subport × Shaper}
    (hx : x ∈ s.catalogue.shapers i) : x.2 = Shaper.trunk ∨ ∃ path, x.2.failures s.catalogue.profiles path = [] := by
  refine (Catalogue.shaper_of_mem_shapers hx).imp_right ?_
  rintro ⟨policy, _, o, ho, hshaper⟩
  have hf := (check_eq_ok_iff_policiesDefined.mp h).1
  rw [Catalogue.failures, List.append_eq_nil_iff, List.append_eq_nil_iff] at hf
  have hpolicy := List.flatMap_eq_nil_iff.mp hf.1.1 o (Table.mem_values_iff.mpr ⟨policy, ho⟩)
  rw [Policy.failures, hshaper] at hpolicy
  exact ⟨_, hpolicy⟩

/-- In a configuration that passes, every pipe of an interface has a profile. -/
theorem defines_of_check (h : s.check = .ok ()) {i : Interface} {x : Subport × Shaper}
    (hx : x ∈ s.catalogue.shapers i) {name : String} (hn : name ∈ x.2.pipes.map (·.2)) :
    x.2.defines s.catalogue.profiles name = true := by
  rcases shaper_of_check h hx with htrunk | ⟨path, hf⟩
  · rw [htrunk] at hn ⊢
    exact Shaper.defines_trunk hn
  · exact Shaper.defines_of_failures hf hn

theorem defaultProfile_ne_of_check (h : s.check = .ok ()) {i : Interface} {x : Subport × Shaper}
    (hx : x ∈ s.catalogue.shapers i) : x.2.defaultProfile ≠ "" := by
  rcases shaper_of_check h hx with htrunk | ⟨path, hf⟩
  · rw [htrunk]
    decide
  · rw [Shaper.failures, List.append_eq_nil_iff, List.append_eq_nil_iff, List.append_eq_nil_iff] at hf
    exact (Shaper.defaultFailures_eq_nil_iff.mp hf.1.1.1).1

end Snapshot
end QosControl
