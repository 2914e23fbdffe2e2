import QosControl.Proofs.Checked
import QosControl.Proofs.Rebuild
import QosControl.Scenario

/-! # Profiles behind a name

A pipe names a profile, and a global profile of that name goes before a local one. When
a global profile is changed, every port whose pipes name it is rebuilt. When one comes
or goes over a local profile of its name, no definition is changed, and a port is
rebuilt only if something else about it is.
-/
namespace QosControl
open Json

def Catalogue.resolve? (c : Catalogue) (s : Shaper) (name : String) : Option Profile :=
  (c.profiles.get? name).or (s.localProfile? name)

namespace Snapshot
variable {old new : Snapshot} {i : Interface} {name : String}

/-- Whether a pipe of an interface names a profile behind which there is another one than before. -/
def ResolvesAnew (old new : Snapshot) (i : Interface) (name : String) : Prop :=
  ∃ x ∈ new.catalogue.shapers i, name ∈ x.2.pipes.map (·.2) ∧
    old.catalogue.resolve? x.2 name ≠ new.catalogue.resolve? x.2 name

instance : Decidable (ResolvesAnew old new i name) :=
  inferInstanceAs (Decidable (∃ x ∈ new.catalogue.shapers i, _))

theorem redefinesProfile_of_resolvesAnew (h : ResolvesAnew old new i name) (hname : name ≠ "")
    (hold : old.catalogue.profiles.contains name = true) (hnew : new.catalogue.profiles.contains name = true) :
    new.catalogue.Names i name ∧ old.catalogue.RedefinesProfile new.catalogue name := by
  obtain ⟨x, hx, hn, hne⟩ := h
  obtain ⟨g, hg⟩ := Table.contains_iff.mp hold
  obtain ⟨k, hk⟩ := Table.contains_iff.mp hnew
  refine ⟨⟨x, hx, .inl (List.mem_filter.mpr ⟨hn, by simpa using hname⟩)⟩, g, k, hg, hk, ?_⟩
  rintro rfl
  exact hne (by rw [Catalogue.resolve?, Catalogue.resolve?, hg, hk])

theorem not_redefined_of_policy?_eq {a b : Catalogue} (h : a.policy? name = b.policy? name) :
    ¬ Redefined a.policies b.policies name := by
  rintro ⟨o, s, ho, hs, hne⟩
  rw [Catalogue.policy?, Catalogue.policy?, ho, hs, Option.map_some, Option.map_some, Option.some.injEq] at h
  exact hne h

end Snapshot

namespace Plan
open Snapshot

/-- A port that is as it was, with the policies that it had, and has another profile behind
the name of one of its pipes, is rebuilt exactly when the name is that of a global profile
before and after, or something else affects the port: the platform parameters, another
global profile that it names, or an object that it refers to. -/
theorem rebuilds_iff_of_resolvesAnew {old new : Snapshot} (hold : old.Read) (hnew : new.Read)
    (platform : LimitCapability) {ifname name : String} {p q : Port} (hp : old.port? ifname = some p)
    (hq : new.port? ifname = some q) (hi : p.interface = q.interface)
    (hpolicies : ∀ n ∈ q.interface.policies, old.catalogue.policy? n = new.catalogue.policy? n)
    (h : ResolvesAnew old new q.interface name) :
    (between old new platform).Rebuilds ifname (new.attachment platform q) ↔
      (name ≠ "" ∧ old.catalogue.profiles.contains name = true ∧ new.catalogue.profiles.contains name = true) ∨
      old.catalogue.platform ≠ new.catalogue.platform ∨
      (∃ n, new.catalogue.Names q.interface n ∧ old.catalogue.RedefinesProfile new.catalogue n) ∨
      ∃ kind n, new.catalogue.Refers q.interface kind n ∧ old.catalogue.Redefines new.catalogue kind n := by
  rw [rebuilds_iff_affects hold.linked.named hnew.linked platform hp hq hi]
  constructor
  · rintro (hplatform | ⟨n, hn, hr⟩ | ⟨n, hn, hr⟩ | ⟨kind, n, hn, hr⟩)
    · exact .inr (.inl hplatform)
    · exact absurd hr (not_redefined_of_policy?_eq (hpolicies n hn))
    · exact .inr (.inr (.inl ⟨n, hn, hr⟩))
    · exact .inr (.inr (.inr ⟨kind, n, hn, hr⟩))
  · rintro (⟨hname, ho, hn⟩ | hplatform | ⟨n, hn, hr⟩ | ⟨kind, n, hn, hr⟩)
    · obtain ⟨hn, hr⟩ := redefinesProfile_of_resolvesAnew h hname ho hn
      exact .profile name hn hr
    · exact .platform hplatform
    · exact .profile n hn hr
    · exact .object kind n hn hr

def shadowed (rates : List String) : Snapshot :=
  orEmpty (Scenario.tree { Scenario.empty with
    policies := [Scenario.simplePolicy "p1" "1Gbit" "prof" "1Gbit"]
    profiles := rates.map (Scenario.profile "prof")
    ports := [Scenario.port "dp0s1" "p1" []] }) none

theorem exists_port_shadowed (old new : Snapshot) (h : ((old.port? "dp0s1").bind fun p =>
      (new.port? "dp0s1").map fun q => decide (p.interface = q.interface ∧
        (∀ n ∈ q.interface.policies, old.catalogue.policy? n = new.catalogue.policy? n) ∧
        ResolvesAnew old new q.interface "prof")) = some true) :
    ∃ p q, old.port? "dp0s1" = some p ∧ new.port? "dp0s1" = some q ∧ p.interface = q.interface ∧
      (∀ n ∈ q.interface.policies, old.catalogue.policy? n = new.catalogue.policy? n) ∧
        ResolvesAnew old new q.interface "prof" := by
  obtain ⟨p, hp, h⟩ := Option.bind_eq_some_iff.mp h
  obtain ⟨q, hq, h⟩ := Option.map_eq_some_iff.mp h
  exact ⟨p, q, hp, hq, of_decide_eq_true h⟩

theorem rebuilds_iff_of_resolvesAnew_changed : ∃ q, (shadowed ["3Gbit"]).port? "dp0s1" = some q ∧
    (between (shadowed ["2Gbit"]) (shadowed ["3Gbit"]) .packets).Rebuilds "dp0s1"
      ((shadowed ["3Gbit"]).attachment .packets q) := by
  obtain ⟨p, q, hp, hq, hi, hpolicies, h⟩ :=
    exists_port_shadowed (shadowed ["2Gbit"]) (shadowed ["3Gbit"]) (by decide +kernel)
  refine ⟨q, hq, (rebuilds_iff_of_resolvesAnew (read_orEmpty _ _) (read_orEmpty _ _) .packets hp hq hi
    hpolicies h).mpr (.inl ⟨by decide, ?_, ?_⟩)⟩
  · decide +kernel
  · decide +kernel

/-- A global profile that comes over a local one changes what a pipe gets, and nothing is sent. -/
theorem not_rebuilds_of_shadowed : ∃ old new p q, old.check = .ok () ∧ new.check = .ok () ∧
    Snapshot.Read old ∧ Snapshot.Read new ∧ old.port? "dp0s1" = some p ∧ new.port? "dp0s1" = some q ∧
    p.interface = q.interface ∧
    (∀ n ∈ q.interface.policies, old.catalogue.policy? n = new.catalogue.policy? n) ∧
    ResolvesAnew old new q.interface "prof" ∧
    ¬ (between old new .packets).Rebuilds "dp0s1" (new.attachment .packets q) := by
  obtain ⟨p, q, hp, hq, hi, hpolicies, h⟩ :=
    exists_port_shadowed (shadowed []) (shadowed ["2Gbit"]) (by decide +kernel)
  have hempty : (between (shadowed []) (shadowed ["2Gbit"]) .packets).instructions = [] := by decide +kernel
  refine ⟨shadowed [], shadowed ["2Gbit"], p, q, check_eq_ok_iff.mpr (by decide +kernel),
    check_eq_ok_iff.mpr (by decide +kernel), read_orEmpty _ _, read_orEmpty _ _, hp, hq, hi, hpolicies, h, ?_⟩
  rintro ⟨before, lines, after, heq⟩
  rw [hempty] at heq
  simp at heq

end Plan
end QosControl
