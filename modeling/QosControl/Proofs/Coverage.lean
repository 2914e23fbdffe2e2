import QosControl.Proofs.Checked
import QosControl.Proofs.Rebuild
import QosControl.Scenario

/-! # Rebuild coverage

A plan never compares the commands of an interface. It compares what they are made
from, and this is enough: where nothing affects a port that both snapshots have as it
was, its commands are the same. Profile numbers take no part in any comparison, so
this needs names of profiles that mean one thing and one order of the global ones.
-/
namespace QosControl

namespace Catalogue

def localProfileNames (c : Catalogue) : List String :=
  Shaper.trunkProfile :: c.policies.values.flatMap fun s => s.object.shaper.profiles.map (·.name)

/-- Whether no global profile has the name of a local one. -/
def Unshadowed (c : Catalogue) : Prop := ∀ name ∈ c.localProfileNames, c.profiles.contains name = false

instance (c : Catalogue) : Decidable c.Unshadowed :=
  inferInstanceAs (Decidable (∀ name ∈ c.localProfileNames, _))

/-- Whether the global profiles that both declare are declared in one order. -/
def SameProfileOrder (a b : Catalogue) : Prop :=
  a.profileOrder.filter b.profileOrder.contains = b.profileOrder.filter a.profileOrder.contains

instance (a b : Catalogue) : Decidable (a.SameProfileOrder b) := inferInstanceAs (Decidable (_ = _))

variable {a b : Catalogue} {i : Interface}

theorem mem_localProfileNames {x : Subport × Shaper} (hx : x ∈ a.shapers i) {p : Profile}
    (hp : p ∈ x.2.profiles) : p.name ∈ a.localProfileNames := by
  rcases shaper_of_mem_shapers hx with htrunk | ⟨policy, _, s, hs, hshaper⟩
  · rw [htrunk] at hp
    have hplain : p = Profile.plain Shaper.trunkProfile := List.mem_singleton.mp hp
    rw [hplain]
    exact List.mem_cons_self
  · refine List.mem_cons_of_mem _ (List.mem_flatMap.mpr ⟨s, Table.mem_values_iff.mpr ⟨policy, hs⟩, ?_⟩)
    rw [hshaper]
    exact List.mem_map_of_mem hp

theorem policy?_eq_of_not_redefined {name : String} (ha : a.policies.contains name = true)
    (hb : b.policies.contains name = true) (h : ¬ Redefined a.policies b.policies name) :
    a.policy? name = b.policy? name := by
  obtain ⟨o, ho⟩ := Table.contains_iff.mp ha
  obtain ⟨s, hs⟩ := Table.contains_iff.mp hb
  rw [policy?, policy?, ho, hs]
  by_contra hne
  exact h ⟨o, s, ho, hs, fun heq => hne (congrArg some heq)⟩

theorem profile?_eq_of_not_redefined {name : String} (ha : a.profiles.contains name = true)
    (hb : b.profiles.contains name = true) (h : ¬ a.RedefinesProfile b name) :
    a.profiles.get? name = b.profiles.get? name := by
  obtain ⟨p, hp⟩ := Table.contains_iff.mp ha
  obtain ⟨q, hq⟩ := Table.contains_iff.mp hb
  rw [hp, hq]
  by_contra hne
  exact h ⟨p, q, hp, hq, fun heq => hne (congrArg some heq)⟩

theorem filter_profileOrder_congr (h : a.SameProfileOrder b) {used : List String}
    (ha : ∀ name ∈ used, name ∈ a.profileOrder) (hb : ∀ name ∈ used, name ∈ b.profileOrder) :
    a.profileOrder.filter used.contains = b.profileOrder.filter used.contains := by
  have hpick : ∀ xs ys : List String, (∀ name ∈ used, name ∈ ys) →
      xs.filter used.contains = (xs.filter ys.contains).filter used.contains := by
    intro xs ys hys
    rw [List.filter_filter]
    refine List.filter_congr fun name _ => ?_
    by_cases hu : name ∈ used <;> simp [hu, hys]
  rw [hpick a.profileOrder b.profileOrder hb, hpick b.profileOrder a.profileOrder ha, h]

end Catalogue

namespace Snapshot
open Catalogue
variable {old new : Snapshot}

def commands (s : Snapshot) (platform : LimitCapability) (p : Port) : List Command :=
  (s.attachment platform p).map Instruction.command

/-- In a configuration that passes and shadows no profile, a name in use is global as
soon as it is the name of no local profile. -/
theorem contains_iff_of_names {s : Snapshot} (hcheck : s.check = .ok ()) (hs : s.catalogue.Unshadowed)
    {i : Interface} {x : Subport × Shaper} (hx : x ∈ s.catalogue.shapers i) {name : String}
    (hn : x.2.Names name) : s.catalogue.profiles.contains name = true ↔ ∀ p ∈ x.2.profiles, p.name ≠ name := by
  constructor
  · rintro hc p hp rfl
    rw [hs p.name (mem_localProfileNames hx hp)] at hc
    cases hc
  · intro hlocal
    rcases hn with hn | ⟨p, hp, hpn⟩
    · have hd := defines_of_check hcheck hx (List.mem_filter.mp hn).1
      rcases Shaper.defines_eq_true_iff.mp hd with ⟨p, hp⟩ | hc
      · refine absurd ?_ (hlocal p (List.mem_of_find?_eq_some hp))
        simpa using List.find?_some hp
      · exact hc
    · exact absurd hpn (hlocal p hp)

section Unaffected
variable {i : Interface}

theorem shapers_eq_of_not_affects (hpolicies : ∀ name ∈ i.policies,
      old.catalogue.policies.contains name = true ∧ new.catalogue.policies.contains name = true)
    (h : ¬ Affects old new i) : old.catalogue.shapers i = new.catalogue.shapers i := by
  refine shapers_congr fun name hn => ?_
  obtain ⟨ho, hs⟩ := hpolicies name hn
  exact policy?_eq_of_not_redefined ho hs fun hr => h (.policy name hn hr)

theorem contains_eq_of_names (hcold : old.check = .ok ()) (hcnew : new.check = .ok ())
    (hsold : old.catalogue.Unshadowed) (hsnew : new.catalogue.Unshadowed)
    (hshapers : old.catalogue.shapers i = new.catalogue.shapers i) {name : String}
    (hn : old.catalogue.Names i name) :
    old.catalogue.profiles.contains name = new.catalogue.profiles.contains name := by
  obtain ⟨x, hx, hn⟩ := hn
  have hold := contains_iff_of_names hcold hsold hx hn
  have hnew := contains_iff_of_names hcnew hsnew (hshapers ▸ hx) hn
  rw [Bool.eq_iff_iff, hold, hnew]

theorem directives_congr {platform : LimitCapability} {p q : Port} (hi : p.interface = q.interface)
    (hindex : p.index = q.index)
    (hshapers : old.catalogue.shapers q.interface = new.catalogue.shapers q.interface)
    (hglobals : ∀ g ∈ q.index.globals, old.catalogue.profiles.get? g.1 = new.catalogue.profiles.get? g.1) :
    directives old.catalogue platform p = directives new.catalogue platform q := by
  have hprofiles : ∀ rate, globalProfileDirectives old.catalogue platform q.index rate =
      globalProfileDirectives new.catalogue platform q.index rate := by
    intro rate
    refine List.flatMap_congr fun ⟨name, id⟩ hg => ?_
    simp only [hglobals (name, id) hg]
  unfold directives
  rw [hi, hindex, hshapers]
  cases new.catalogue.shapers q.interface with
  | nil => rfl
  | cons x rest => simp only [hprofiles]

end Unaffected

/-- Where nothing affects a port, its profile numbers and its lines stay as they were. -/
theorem attachment_eq_of_not_affects (hold : old.Linked) (hnew : new.Linked)
    (hcold : old.check = .ok ()) (hcnew : new.check = .ok ()) (hsold : old.catalogue.Unshadowed)
    (hsnew : new.catalogue.Unshadowed) (horder : old.catalogue.SameProfileOrder new.catalogue)
    (platform : LimitCapability) {p q : Port} (hp : p ∈ old.ports) (hq : q ∈ new.ports)
    (hi : p.interface = q.interface) (h : ¬ Affects old new q.interface) :
    old.attachment platform p = new.attachment platform q := by
  have hshapers : old.catalogue.shapers q.interface = new.catalogue.shapers q.interface := by
    refine shapers_eq_of_not_affects (fun name hn => ⟨?_, ?_⟩) h
    · exact contains_of_check hcold hp (hi ▸ hn)
    · exact contains_of_check hcnew hq hn
  have hnames : ∀ name, old.catalogue.Names q.interface name → old.catalogue.profiles.contains name =
      new.catalogue.profiles.contains name := fun name =>
    contains_eq_of_names hcold hcnew hsold hsnew hshapers
  have hused : ∀ name ∈ old.catalogue.usedGlobals q.interface,
      name ∈ old.catalogue.profileOrder ∧ name ∈ new.catalogue.profileOrder := by
    intro name hu
    obtain ⟨hn, hc⟩ := mem_usedGlobals.mp hu
    exact ⟨(hold.order name).mpr hc, (hnew.order name).mpr (hnames name hn ▸ hc)⟩
  have hindex : p.index = q.index := by
    rw [hold.index p hp, hnew.index q hq, hi]
    refine profileIndex_congr hshapers hnames (filter_profileOrder_congr horder ?_ ?_)
    · exact fun name hu => (hused name hu).1
    · exact fun name hu => (hused name hu).2
  have hglobals : ∀ g ∈ q.index.globals,
      old.catalogue.profiles.get? g.1 = new.catalogue.profiles.get? g.1 := by
    intro g hg
    have hfind := ProfileIndex.mem_globals.mp hg
    rw [← hindex, hold.index p hp, hi] at hfind
    have hsome := Option.isSome_iff_exists.mpr ⟨_, hfind⟩
    obtain ⟨hn, hc⟩ := mem_usedGlobals.mp (isSome_find?_profileIndex.mp hsome).2
    refine profile?_eq_of_not_redefined hc (hnames g.1 hn ▸ hc) fun hr => h (.profile g.1 ?_ hr)
    obtain ⟨x, hx, hn⟩ := hn
    exact ⟨x, hshapers ▸ hx, hn⟩
  rw [attachment, attachment, directives_congr hi hindex hshapers hglobals, Port.name, Port.name, hi]

end Snapshot

namespace Plan
open Snapshot
variable {old new : Snapshot}

/-- A plan rebuilds every port of both snapshots whose commands change, and every such
port when the platform parameters or an object that it refers to change. -/
theorem rebuilds_of_commands_ne (hold : old.Read) (hnew : new.Read) (hcold : old.check = .ok ())
    (hcnew : new.check = .ok ()) (hsold : old.catalogue.Unshadowed) (hsnew : new.catalogue.Unshadowed)
    (horder : old.catalogue.SameProfileOrder new.catalogue) (platform : LimitCapability) {ifname : String}
    {p q : Port} (hp : old.port? ifname = some p) (hq : new.port? ifname = some q)
    (h : old.commands platform p ≠ new.commands platform q ∨
      old.catalogue.platform ≠ new.catalogue.platform ∨
      ∃ kind name, new.catalogue.Refers q.interface kind name ∧
        old.catalogue.Redefines new.catalogue kind name) :
    (between old new platform).Rebuilds ifname (new.attachment platform q) := by
  by_cases hi : p.interface = q.interface
  · rw [rebuilds_iff_affects hold.linked.named hnew.linked platform hp hq hi]
    obtain ⟨hpo, _⟩ := port?_eq_some_iff.mp hp
    obtain ⟨hqn, _⟩ := port?_eq_some_iff.mp hq
    by_contra hna
    rcases h with hne | hplatform | ⟨kind, name, hr, hd⟩
    · refine hne (congrArg (List.map Instruction.command) ?_)
      exact attachment_eq_of_not_affects hold.linked hnew.linked hcold hcnew hsold hsnew horder platform
        hpo hqn hi hna
    · exact hna (.platform hplatform)
    · exact hna (.object kind name hr hd)
  · exact rebuilds_of_changed platform hp hq hi

/-- A port whose policy has the given classes, all with one global profile. -/
def classified (classes : List Nat) : Snapshot :=
  orEmpty (Scenario.tree { Scenario.empty with
    policies := [Scenario.globalPolicy "p1" "prof" (classes.map (·, "prof"))]
    profiles := [Scenario.profile "prof" "1Gbit"]
    ports := [Scenario.port "dp0s1" "p1" []] }) none

theorem rebuilds_of_commands_ne_classified : ∃ q, (classified [1]).port? "dp0s1" = some q ∧
    (between (classified []) (classified [1]) .packets).Rebuilds "dp0s1"
      ((classified [1]).attachment .packets q) := by
  obtain ⟨p, hp⟩ : ∃ p, (classified []).port? "dp0s1" = some p :=
    Option.isSome_iff_exists.mp (by decide +kernel)
  obtain ⟨q, hq⟩ : ∃ q, (classified [1]).port? "dp0s1" = some q :=
    Option.isSome_iff_exists.mp (by decide +kernel)
  have hlength : ((classified []).port? "dp0s1").map (fun r => ((classified []).commands .packets r).length) ≠
      ((classified [1]).port? "dp0s1").map (fun r => ((classified [1]).commands .packets r).length) := by
    decide +kernel
  rw [hp, hq] at hlength
  have hne : (classified []).commands .packets p ≠ (classified [1]).commands .packets q := by
    intro heq
    exact hlength (congrArg (fun cs : List Command => some cs.length) heq)
  have hold : (classified []).check = .ok () := check_eq_ok_iff.mpr (by decide +kernel)
  have hnew : (classified [1]).check = .ok () := check_eq_ok_iff.mpr (by decide +kernel)
  exact ⟨q, hq, rebuilds_of_commands_ne (read_orEmpty _ _) (read_orEmpty _ _) hold hnew (by decide +kernel)
    (by decide +kernel) (by decide +kernel) .packets hp hq (.inl hne)⟩

end Plan
end QosControl
