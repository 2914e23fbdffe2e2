import QosControl.Proofs.Bindings

/-! # Locality of a stream

A stream says nothing to a port of the old snapshot exactly when the port is left alone and
no map that it binds is withdrawn. This holds in particular where everything that the port
depends on is the same in both snapshots, whatever else differs between them.
-/
namespace QosControl

/-- Whether a name stands for the same object in both tables, or for none in both. -/
def SameIn {α β : Type} (old new : Table String (Shared α β)) (name : String) : Prop :=
  (old.get? name).map Shared.object = (new.get? name).map Shared.object

namespace SameIn
variable {α β : Type} {old new : Table String (Shared α β)} {name : String}

instance [DecidableEq α] : Decidable (SameIn old new name) := inferInstanceAs (Decidable (Option.map _ _ = _))

theorem not_redefined (h : SameIn old new name) : ¬ Redefined old new name := by
  rintro ⟨o, s, ho, hs, hne⟩
  rw [SameIn, ho, hs] at h
  exact hne (Option.some.inj h)

theorem get?_eq_none_iff (h : SameIn old new name) : old.get? name = none ↔ new.get? name = none := by
  have hnone := congrArg Option.isNone h
  rw [Option.isNone_map, Option.isNone_map] at hnone
  rw [← Option.isNone_iff_eq_none, ← Option.isNone_iff_eq_none, hnone]

end SameIn

namespace Catalogue
variable {a b : Catalogue} {kind : ObjectKind} {name : String}

def references (c : Catalogue) (i : Interface) : ObjectKind → List String
  | .markMap => (c.shapers i).filterMap fun x => x.2.markMap
  | .ingressMap => (i.mapUses .ingress).map (·.map)
  | .egressMap => (i.mapUses .egress).map (·.map)
  | .actionGroup => (c.shapers i).flatMap fun x => x.2.actionGroups

theorem mem_references {c : Catalogue} {i : Interface} : name ∈ c.references i kind ↔ c.Refers i kind name := by
  have hmap : ∀ m, name ∈ (i.mapUses m).map (·.map) ↔ ∃ vlan, ⟨name, vlan⟩ ∈ i.mapUses m := by
    intro m
    rw [List.mem_map]
    constructor
    · rintro ⟨u, hu, rfl⟩
      exact ⟨u.vlan, hu⟩
    · rintro ⟨vlan, hu⟩
      exact ⟨_, hu, rfl⟩
  cases kind with
  | markMap =>
    rw [references, List.mem_filterMap]
    exact ⟨fun ⟨x, hx, hm⟩ => ⟨_, x, hx, rfl, hm⟩, fun ⟨_, x, hx, _, hm⟩ => ⟨x, hx, hm⟩⟩
  | actionGroup =>
    rw [references, List.mem_flatMap]
    exact ⟨fun ⟨x, hx, hg⟩ => ⟨_, x, hx, rfl, hg⟩, fun ⟨_, x, hx, _, hg⟩ => ⟨x, hx, hg⟩⟩
  | ingressMap => exact hmap .ingress
  | egressMap => exact hmap .egress

/-- Whether a name stands for the same object of a kind in both catalogues, or for none in both. -/
def SameObject (a b : Catalogue) (kind : ObjectKind) (name : String) : Prop :=
  match kind with
  | .markMap => SameIn a.markMaps b.markMaps name
  | .ingressMap => SameIn a.ingressMaps b.ingressMaps name
  | .egressMap => SameIn a.egressMaps b.egressMaps name
  | .actionGroup => SameIn a.actionGroups b.actionGroups name

instance (a b : Catalogue) (kind : ObjectKind) (name : String) : Decidable (a.SameObject b kind name) :=
  match kind with
  | .markMap | .ingressMap | .egressMap | .actionGroup => inferInstanceAs (Decidable (Option.map _ _ = _))

theorem SameObject.not_redefines (h : a.SameObject b kind name) : ¬ a.Redefines b kind name := by
  cases kind <;> exact h.not_redefined

theorem SameObject.object?_eq_none_iff (h : a.SameObject b kind name) :
    a.object? kind name = none ↔ b.object? kind name = none := by
  cases kind <;>
  · rw [object?, object?, Option.map_eq_none_iff, Option.map_eq_none_iff]
    exact h.get?_eq_none_iff

end Catalogue

namespace Snapshot
variable {old new : Snapshot}

/-- Whether what a port of the new snapshot depends on is the same in both snapshots, or in neither:
the policies that its subports name, the global profiles that it has a number for, and the objects
that its shapers name and that it binds. -/
structure Settled (old new : Snapshot) (q : Port) : Prop where
  platform : old.catalogue.platform = new.catalogue.platform
  policies : ∀ name ∈ q.interface.policies, SameIn old.catalogue.policies new.catalogue.policies name
  profiles : ∀ g ∈ q.index.globals, old.catalogue.profiles.get? g.1 = new.catalogue.profiles.get? g.1
  objects : ∀ kind name, new.catalogue.Refers q.interface kind name →
    old.catalogue.SameObject new.catalogue kind name

theorem settled_iff {q : Port} : Settled old new q ↔
    old.catalogue.platform = new.catalogue.platform ∧
    (∀ name ∈ q.interface.policies, SameIn old.catalogue.policies new.catalogue.policies name) ∧
    (∀ g ∈ q.index.globals, old.catalogue.profiles.get? g.1 = new.catalogue.profiles.get? g.1) ∧
    ∀ kind ∈ [ObjectKind.markMap, .ingressMap, .egressMap, .actionGroup],
      ∀ name ∈ new.catalogue.references q.interface kind, old.catalogue.SameObject new.catalogue kind name := by
  simp only [Catalogue.mem_references]
  constructor
  · intro h
    exact ⟨h.platform, h.policies, h.profiles, fun kind _ => h.objects kind⟩
  · rintro ⟨hplatform, hpolicies, hprofiles, hobjects⟩
    refine ⟨hplatform, hpolicies, hprofiles, fun kind => hobjects kind ?_⟩
    cases kind <;> decide

instance (old new : Snapshot) (q : Port) : Decidable (Settled old new q) := decidable_of_iff' _ settled_iff

theorem exists_mem_globals (hs : new.Linked) {q : Port} (hq : q ∈ new.ports) {name : String}
    (hn : new.catalogue.Names q.interface name) (hc : new.catalogue.profiles.contains name = true) :
    ∃ n, (name, n) ∈ q.index.globals := by
  have hfind : (q.index.find? (.shared name)).isSome = true := by
    rw [hs.index q hq, Catalogue.isSome_find?_profileIndex, Catalogue.mem_usedGlobals]
    exact ⟨(hs.order name).mpr hc, hn, hc⟩
  obtain ⟨n, hn⟩ := Option.isSome_iff_exists.mp hfind
  exact ⟨n, ProfileIndex.mem_globals.mpr hn⟩

theorem Settled.not_affects {q : Port} (h : Settled old new q) (hs : new.Linked) (hq : q ∈ new.ports) :
    ¬ Affects old new q.interface := by
  intro ha
  cases ha with
  | platform hne => exact hne h.platform
  | policy name hn hr => exact (h.policies name hn).not_redefined hr
  | profile name hn hr =>
    obtain ⟨o, s, ho, hsome, hne⟩ := hr
    have hc : new.catalogue.profiles.contains name = true := Table.contains_iff.mpr ⟨s, hsome⟩
    obtain ⟨n, hg⟩ := exists_mem_globals hs hq hn hc
    have hsame := h.profiles (name, n) hg
    rw [ho, hsome] at hsame
    exact hne (Option.some.inj hsame)
  | object kind name hr hd => exact (h.objects kind name hr).not_redefines hd

end Snapshot

theorem Instruction.exists_port_of_target {i : Instruction} {ifname : String} (h : i.command.target = ifname)
    (hne : ifname ≠ everyTarget) : ∃ d, i = .port ifname d := by
  cases i with
  | port name d =>
    have hname : name = ifname := h
    exact ⟨d, by rw [hname]⟩
  | _ => exact absurd h.symm hne

namespace Plan
open Snapshot Json
variable {old new : Snapshot} {ifname : String}

theorem target_ne_iff_linesFor_eq_nil (plan : Plan) (hne : ifname ≠ everyTarget) :
    (∀ c ∈ plan.commands, c.target ≠ ifname) ↔ linesFor ifname plan.instructions = [] := by
  rw [linesFor_eq_nil_iff]
  constructor
  · intro h d hd
    exact h _ (List.mem_map_of_mem hd) rfl
  · intro h c hc htarget
    obtain ⟨i, hi, rfl⟩ := List.mem_map.mp hc
    obtain ⟨d, rfl⟩ := Instruction.exists_port_of_target htarget hne
    exact h d hi

/-- A stream has nothing to say to a port of the old snapshot exactly when the port is left alone
and no map that it binds is withdrawn. -/
theorem linesFor_eq_nil_iff_leavesAlone (hold : old.Linked) (hnew : new.Linked) (platform : LimitCapability)
    {p : Port} (hp : old.port? ifname = some p) :
    linesFor ifname (between old new platform).instructions = [] ↔ LeavesAlone old new ifname ∧
      ∀ m u, old.Binds ifname m u → ¬ Withdraws old new m.objectKind u.map := by
  rw [linesFor_between hold.named hnew.named, List.append_eq_nil_iff]
  have htransition : transition old new platform ifname = [] ↔ LeavesAlone old new ifname := by
    rw [leavesAlone_iff hnew, transition, hp]
    cases new.port? ifname with
    | none => simp
    | some q => simp
  rw [htransition, and_comm]
  refine and_congr_right fun h => ?_
  rw [List.eq_nil_iff_forall_not_mem]
  constructor
  · intro hnil m u hu hw
    exact hnil _ ((unbind_mem_unbindings_iff hold hnew h hu).mpr hw)
  · intro hkept d hd
    obtain ⟨m, name, vlan, r, rfl, hr, hu, _⟩ := (mem_unbindings hold).mp hd
    have hbinds : old.Binds ifname m ⟨name, vlan⟩ := ⟨r, hr, hu⟩
    exact hkept m _ hbinds ((unbind_mem_unbindings_iff hold hnew h hbinds).mp hd)

theorem linesFor_eq_nil_of_absent (hold : old.Linked) (hnew : new.Linked) (platform : LimitCapability)
    (hp : old.port? ifname = none) (hq : new.port? ifname = none) :
    linesFor ifname (between old new platform).instructions = [] := by
  rw [linesFor_between hold.named hnew.named, unbindings_eq_nil hold hp, transition, hp, hq]
  rfl

/-- A stream sends nothing to an interface that is in neither snapshot, and nothing to one that is
the same in both and depends on nothing that differs. -/
theorem target_ne_of_settled (hold : old.Read) (hnew : new.Read) (platform : LimitCapability)
    (hname : ifname ≠ everyTarget)
    (h : (old.port? ifname = none ∧ new.port? ifname = none) ∨
      ∃ p q, old.port? ifname = some p ∧ new.port? ifname = some q ∧ p.interface = q.interface ∧
        Settled old new q) :
    ∀ c ∈ (between old new platform).commands, c.target ≠ ifname := by
  rw [target_ne_iff_linesFor_eq_nil _ hname]
  rcases h with ⟨hp, hq⟩ | ⟨p, q, hp, hq, heq, hsettled⟩
  · exact linesFor_eq_nil_of_absent hold.linked hnew.linked platform hp hq
  · have hqn : q ∈ new.ports := (port?_eq_some_iff.mp hq).1
    have hleft : LeavesAlone old new ifname :=
      ⟨p, q, hp, hq, heq, hsettled.not_affects hnew.linked hqn⟩
    refine (linesFor_eq_nil_iff_leavesAlone hold.linked hnew.linked platform hp).mpr ⟨hleft, ?_⟩
    rintro m u hu ⟨⟨o, ho⟩, hnone⟩
    -- a map that the port binds is in both snapshots or in neither
    obtain ⟨r, hr, hmem⟩ := (binds_iff_of_leavesAlone hleft).mp hu
    cases hq.symm.trans hr
    have hrefers : new.catalogue.Refers q.interface m.objectKind u.map :=
      ⟨u.vlan, Catalogue.refersAt_objectKind.mpr hmem⟩
    rw [(hsettled.objects _ _ hrefers).object?_eq_none_iff.mpr hnone] at ho
    cases ho

/-- A port whose pipes have a global profile and that binds a map, next to a port with a policy of
the given rate and to other global profiles. -/
def neighboured (rate : String) (profiles : List Value) : Snapshot :=
  orEmpty (Scenario.tree { Scenario.empty with
    policies := [Scenario.globalPolicy "p1" "shared" [], Scenario.simplePolicy "p2" rate "prof" rate]
    profiles := Scenario.profile "shared" "1Gbit" :: profiles
    ingressMaps := [Scenario.ingressMap "in" "voice" 1]
    dscpGroups := [Scenario.dscpGroup "voice" ["46"]]
    ports := [Scenario.port "dp0s1" "p1" [(Schema.ingressMap, "in")], Scenario.port "dp0s2" "p2" []] }) none

theorem target_ne_of_settled_neighboured :
    let old := neighboured "1Gbit" [Scenario.profile "other" "1Gbit"]
    let new := neighboured "2Gbit" []
    let stream := (between old new .packets).commands
    (∃ p q, old.port? "dp0s1" = some p ∧ new.port? "dp0s1" = some q ∧ p.interface = q.interface ∧
      Settled old new q) ∧ stream ≠ [] ∧ ∀ c ∈ stream, c.target ≠ "dp0s1" := by
  intro old new stream
  have hports : (old.port? "dp0s1").any (fun p => (new.port? "dp0s1").any fun q =>
      decide (p.interface = q.interface ∧ Settled old new q)) = true := by decide +kernel
  obtain ⟨p, hp, hports⟩ := (Option.any_eq_true _ _).mp hports
  obtain ⟨q, hq, hsettled⟩ := (Option.any_eq_true _ _).mp hports
  have hsame : ∃ p q, old.port? "dp0s1" = some p ∧ new.port? "dp0s1" = some q ∧ p.interface = q.interface ∧
      Settled old new q := ⟨p, q, hp, hq, of_decide_eq_true hsettled⟩
  refine ⟨hsame, by decide +kernel, ?_⟩
  exact target_ne_of_settled (read_orEmpty _ _) (read_orEmpty _ _) .packets (by decide) (.inr hsame)

end Plan
end QosControl
