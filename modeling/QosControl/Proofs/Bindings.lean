import QosControl.Proofs.Held
import QosControl.Proofs.Runs

/-! # Map bindings over a run

Bindings are taken off from two sides, by the removal of a map and by the disabling of a port,
and set from one, when all lines of a port are sent. A port that is left alone while a map of it
is removed is therefore stranded: when the map comes back, the port is left alone again, since
no definition that it depends on was changed. A binding is lost in no other way.
-/
namespace QosControl
open Json

namespace Snapshot

def Binds (s : Snapshot) (ifname : String) (m : PortMapKind) (u : MapUse) : Prop :=
  ∃ p, s.port? ifname = some p ∧ u ∈ p.interface.mapUses m

/-- Whether a port is in both snapshots as it was, and nothing affects it. -/
def LeavesAlone (old new : Snapshot) (ifname : String) : Prop :=
  ∃ p q, old.port? ifname = some p ∧ new.port? ifname = some q ∧ p.interface = q.interface ∧
    ¬ Affects old new q.interface

def Withdraws (old new : Snapshot) (kind : ObjectKind) (name : String) : Prop :=
  (∃ o, old.catalogue.object? kind name = some o) ∧ new.catalogue.object? kind name = none

/-- Whether an object was withdrawn under a port that was left alone then and ever since. The
snapshots are listed from the last one back. -/
def Stranded (kind : ObjectKind) (name ifname : String) : List Snapshot → Prop
  | new :: old :: earlier => LeavesAlone old new ifname ∧
    (Withdraws old new kind name ∨ Stranded kind name ifname (old :: earlier))
  | _ => False

end Snapshot

namespace Plan
open Snapshot NamedObject
variable {old new : Snapshot} {platform : LimitCapability} {held : Held} {ifname : String}

theorem leavesAlone_iff (hnew : new.Linked) : LeavesAlone old new ifname ↔
    ∃ p q, old.port? ifname = some p ∧ new.port? ifname = some q ∧ p.interface = q.interface ∧
      ifname ∉ affected old new := by
  have haffected : ∀ {p q : Port}, old.port? ifname = some p → new.port? ifname = some q →
      (ifname ∈ affected old new ↔ Affects old new q.interface) := by
    intro p q hp hq
    obtain ⟨hqn, rfl⟩ := port?_eq_some_iff.mp hq
    exact mem_affected_iff hnew hqn (has_eq_true_iff.mpr ⟨p, hp⟩)
  constructor
  · rintro ⟨p, q, hp, hq, heq, hna⟩
    exact ⟨p, q, hp, hq, heq, fun ha => hna ((haffected hp hq).mp ha)⟩
  · rintro ⟨p, q, hp, hq, heq, hna⟩
    exact ⟨p, q, hp, hq, heq, fun ha => hna ((haffected hp hq).mpr ha)⟩

theorem binds_iff_of_leavesAlone (h : LeavesAlone old new ifname) {m : PortMapKind} {u : MapUse} :
    old.Binds ifname m u ↔ new.Binds ifname m u := by
  obtain ⟨p, q, hp, hq, heq, _⟩ := h
  simp only [Binds, hp, hq, Option.some.injEq, exists_eq_left', heq]

theorem mem_replay_of_leavesAlone (hold : old.Linked) (hnew : new.Linked) (h : LeavesAlone old new ifname)
    {d : PortDirective} : d ∈ held.replay (between old new platform).instructions ifname ↔
      d ∈ held ifname ∧ ∀ m name vlan, .unbind m name vlan ∈ unbindings old new ifname →
        d ≠ .bind m name vlan := by
  have htransition : transition old new platform ifname = [] := by
    obtain ⟨p, q, hp, hq, heq, ha⟩ := (leavesAlone_iff hnew).mp h
    rw [transition, hp, hq]
    exact if_pos ⟨heq, ha⟩
  rw [Held.replay_eq_foldl, linesFor_between hold.named hnew.named, htransition, List.append_nil,
    mem_foldl_onto_unbind]
  intro e he
  obtain ⟨m, name, vlan, _, rfl, _⟩ := (mem_unbindings hold).mp he
  exact ⟨m, name, vlan, rfl⟩

theorem replay_of_not_leavesAlone (hold : old.Linked) (hnew : new.Linked) (h : ¬ LeavesAlone old new ifname)
    (hheld : old.port? ifname = none → held ifname = []) :
    held.replay (between old new platform).instructions ifname = new.held platform ifname := by
  have hlines : ∀ (ds : List PortDirective) (q : Port), (directives new.catalogue platform q).foldl
      PortDirective.onto ds = ds ++ directives new.catalogue platform q := by
    intro ds q
    exact foldl_onto_eq_append disable_not_mem_directives fun m name vlan => unbind_not_mem_directives
  rw [Held.replay_eq_foldl, linesFor_between hold.named hnew.named, List.foldl_append, transition,
    Snapshot.held]
  cases hp : old.port? ifname with
  | none =>
    rw [unbindings_eq_nil hold hp, hheld hp]
    cases new.port? ifname with
    | none => rfl
    | some q => exact hlines [] q
  | some p =>
    cases hq : new.port? ifname with
    | none => rfl
    | some q =>
      have hmoved : ¬ (p.interface = q.interface ∧ ifname ∉ affected old new) := by
        rintro ⟨heq, ha⟩
        exact h ((leavesAlone_iff hnew).mpr ⟨p, q, hp, hq, heq, ha⟩)
      simp only [if_neg hmoved, List.foldl_cons]
      exact hlines [] q

theorem refers_of_binds {s : Snapshot} {m : PortMapKind} {u : MapUse} (h : s.Binds ifname m u) :
    ∃ p ∈ s.ports, s.catalogue.Refers p.interface m.objectKind u.map := by
  obtain ⟨p, hp, hu⟩ := h
  exact ⟨p, (port?_eq_some_iff.mp hp).1, u.vlan, Catalogue.refersAt_objectKind.mpr hu⟩

theorem unbind_mem_unbindings_iff (hold : old.Linked) (hnew : new.Linked) (h : LeavesAlone old new ifname)
    {m : PortMapKind} {name : String} {vlan : Nat} (hu : old.Binds ifname m ⟨name, vlan⟩) :
    .unbind m name vlan ∈ unbindings old new ifname ↔ Withdraws old new m.objectKind name := by
  -- the map is bound in both snapshots, so neither holds it back
  obtain ⟨p, hp, hr⟩ := refers_of_binds hu
  obtain ⟨q, hq, hr'⟩ := refers_of_binds ((binds_iff_of_leavesAlone h).mp hu)
  rw [mem_unbindings hold]
  constructor
  · rintro ⟨_, _, _, _, hd, _, _, hout⟩
    cases hd
    obtain ⟨o, ho, _, hgone⟩ := Catalogue.mem_keys_outgoing.mp hout
    refine ⟨⟨o, ho⟩, ?_⟩
    by_contra hne
    obtain ⟨t, ht⟩ := Option.ne_none_iff_exists'.mp hne
    have husers := hnew.users_ne_nil hq hr' ht
    rcases hgone t ht with hd | ⟨_, hnil⟩
    · simp [ObjectEntry.deferred, husers] at hd
    · exact husers hnil
  · rintro ⟨⟨o, ho⟩, hnone⟩
    obtain ⟨r, hr₀, hu⟩ := hu
    refine ⟨m, name, vlan, r, rfl, hr₀, hu, Catalogue.mem_keys_outgoing.mpr ⟨o, ho, ?_, ?_⟩⟩
    · simp [ObjectEntry.deferred, hold.users_ne_nil hp hr ho]
    · simp [hnone]

/-- After a stream a port has a binding that it carries, unless the port was left alone and did
not have it before, or was left alone while the map was withdrawn. -/
theorem bind_mem_replay_iff (hold : old.Linked) (hnew : new.Linked) (platform : LimitCapability)
    (hheld : old.port? ifname = none → held ifname = []) {m : PortMapKind} {name : String} {vlan : Nat}
    (hbinds : .bind m name vlan ∈ held ifname → old.Binds ifname m ⟨name, vlan⟩) :
    .bind m name vlan ∈ held.replay (between old new platform).instructions ifname ↔
      new.Binds ifname m ⟨name, vlan⟩ ∧ (LeavesAlone old new ifname →
        .bind m name vlan ∈ held ifname ∧ ¬ Withdraws old new m.objectKind name) := by
  by_cases h : LeavesAlone old new ifname
  · have hunbound : (∀ k map v, .unbind k map v ∈ unbindings old new ifname →
        PortDirective.bind m name vlan ≠ .bind k map v) ↔ .unbind m name vlan ∉ unbindings old new ifname := by
      constructor
      · intro hne hmem
        exact hne _ _ _ hmem rfl
      · rintro hmem k map v hunbind heq
        cases heq
        exact hmem hunbind
    rw [mem_replay_of_leavesAlone hold hnew h, hunbound]
    constructor
    · rintro ⟨hd, hmem⟩
      have hu := hbinds hd
      rw [unbind_mem_unbindings_iff hold hnew h hu] at hmem
      exact ⟨(binds_iff_of_leavesAlone h).mp hu, fun _ => ⟨hd, hmem⟩⟩
    · rintro ⟨_, himp⟩
      obtain ⟨hd, hw⟩ := himp h
      rw [unbind_mem_unbindings_iff hold hnew h (hbinds hd)]
      exact ⟨hd, hw⟩
  · rw [replay_of_not_leavesAlone hold hnew h hheld, mem_held]
    simp only [bind_mem_directives]
    exact ⟨fun hu => ⟨hu, fun hl => absurd hl h⟩, fun hu => hu.1⟩

theorem replay_eq_nil_of_port?_eq_none (hold : old.Linked) (hnew : new.Linked) (platform : LimitCapability)
    (hheld : old.port? ifname = none → held ifname = []) (hq : new.port? ifname = none) :
    held.replay (between old new platform).instructions ifname = [] := by
  have hl : ¬ LeavesAlone old new ifname := by
    rintro ⟨_, q, _, hq', _⟩
    cases hq.symm.trans hq'
  rw [replay_of_not_leavesAlone hold hnew hl hheld, Snapshot.held, hq]

end Plan

/-- What interfaces hold after a run that passed through the given snapshots, as far as bindings
go. The snapshots are listed from the last one back. -/
structure Follows (held : Held) (s : Snapshot) (earlier : List Snapshot) : Prop where
  absent : ∀ ifname, s.port? ifname = none → held ifname = []
  bound : ∀ ifname m name vlan, .bind m name vlan ∈ held ifname ↔ s.Binds ifname m ⟨name, vlan⟩ ∧
    ¬ Snapshot.Stranded m.objectKind name ifname (s :: earlier)

theorem Follows.step {held : Held} {s t : Snapshot} {earlier : List Snapshot} (h : Follows held s earlier)
    (hs : s.Linked) (ht : t.Linked) (platform : LimitCapability) :
    Follows (held.replay (Plan.between s t platform).instructions) t (s :: earlier) where
  absent ifname hnone := Plan.replay_eq_nil_of_port?_eq_none hs ht platform (h.absent ifname) hnone
  bound ifname m name vlan := by
    have hbinds : .bind m name vlan ∈ held ifname → s.Binds ifname m ⟨name, vlan⟩ := fun hd =>
      ((h.bound ifname m name vlan).mp hd).1
    rw [Plan.bind_mem_replay_iff hs ht platform (h.absent ifname) hbinds, h.bound]
    refine and_congr_right fun hu => ?_
    have hkept : Snapshot.LeavesAlone s t ifname → s.Binds ifname m ⟨name, vlan⟩ :=
      fun hl => (Plan.binds_iff_of_leavesAlone hl).mpr hu
    rw [Snapshot.Stranded]
    constructor
    · rintro himp ⟨hl, hw | hstranded⟩
      · exact (himp hl).2 hw
      · exact (himp hl).1.2 hstranded
    · intro hns hl
      exact ⟨⟨hkept hl, fun hstranded => hns ⟨hl, .inr hstranded⟩⟩, fun hw => hns ⟨hl, .inl hw⟩⟩

namespace Manager
open Snapshot

def applying (steps : List (Value × Surroundings)) : List Call := steps.map fun x => .apply x.1 x.2

/-- The snapshots that a run of applied trees passes through, from the last one back. -/
def history (membership : Membership) (steps : List (Value × Surroundings)) : List Snapshot :=
  (emptyTree :: steps.map (·.1)).reverse.map fun tree => orEmpty tree (some membership)

variable {platform : LimitCapability} {membership : Membership}

theorem ofTree_emptyTree (membership : Membership) :
    ofTree emptyTree (some membership) = .ok (ofParts .empty .empty) := rfl

theorem follows_of_runFrom? (steps : List (Value × Surroundings)) {m : Manager} {log : List Instruction}
    (h : runFrom? ((new platform).withMembership membership) (applying steps) = some (m, log)) :
    m.membership = membership ∧ ∃ s earlier, m.snapshot m.lastApplied = .ok s ∧
      history membership steps = s :: earlier ∧ Follows (Held.none.replay log) s earlier := by
  induction steps using List.reverseRecOn generalizing m log with
  | nil =>
    cases h
    refine ⟨rfl, ofParts .empty .empty, [], ofTree_emptyTree membership, rfl, fun _ _ => rfl, ?_⟩
    intro ifname k name vlan
    constructor
    · intro hd
      cases hd
    · rintro ⟨⟨p, hp, _⟩, _⟩
      cases hp
  | append_singleton steps step ih =>
    have happlying : applying (steps ++ [step]) = applying steps ++ [.apply step.1 step.2] := by
      simp [applying]
    rw [happlying] at h
    obtain ⟨n, before, plan, t, hn, hc, rfl⟩ := runFrom?_concat.mp h
    obtain ⟨hmembership, s, earlier, hs, hhistory, hfollows⟩ := ih hn
    obtain ⟨hplan, rfl, _⟩ := apply_eq_ok hc
    obtain ⟨old, new, hold, hnew, rfl⟩ := plan_eq_ok hplan
    cases hs.symm.trans hold
    refine ⟨hmembership, new, s :: earlier, hnew, ?_, ?_⟩
    · have horEmpty : orEmpty step.1 (some membership) = new := by
        rw [snapshot, hmembership] at hnew
        rw [orEmpty, hnew]
        rfl
      have hsplit : history membership (steps ++ [step]) =
          orEmpty step.1 (some membership) :: history membership steps := by simp [history]
      rw [hsplit, horEmpty, hhistory]
    · rw [Held.replay_append]
      exact hfollows.step (Read.tree hold).linked (Read.tree hnew).linked n.platform

/-- After every run of applied trees the bindings that a port has are those that the last tree
gives it, but for maps that were withdrawn under it while it was left alone, then and ever since. -/
theorem bind_mem_run_iff {steps : List (Value × Surroundings)} {m : Manager} {log : List Instruction}
    (h : runFrom? ((new platform).withMembership membership) (applying steps) = some (m, log)) :
    ∃ s, m.snapshot m.lastApplied = .ok s ∧ ∀ ifname k name vlan,
      .bind k name vlan ∈ Held.none.replay log ifname ↔ s.Binds ifname k ⟨name, vlan⟩ ∧
        ¬ Stranded k.objectKind name ifname (history membership steps) := by
  obtain ⟨_, s, earlier, hs, hhistory, hfollows⟩ := follows_of_runFrom? steps h
  exact ⟨s, hs, hhistory ▸ hfollows.bound⟩

def bindingTree (maps : List Value) : Value := Scenario.tree { Scenario.empty with
  policies := [Scenario.simplePolicy "p1" "1Gbit" "prof" "1Gbit"]
  ingressMaps := maps
  dscpGroups := [Scenario.dscpGroup "voice" ["46"]]
  ports := [Scenario.port "dp0s1" "p1" [(Schema.ingressMap, "in")]] }

def bindingRun (maps : List (List Value)) : List (Value × Surroundings) :=
  maps.map fun ms => (bindingTree ms, willing)

theorem bind_mem_run_iff_redefined : ∃ m log,
    let steps := bindingRun [[Scenario.ingressMap "in" "voice" 1], [Scenario.ingressMap "in" "voice" 2]]
    runFrom? ((new .packets).withMembership .empty) (applying steps) = some (m, log) ∧
      ¬ Stranded .ingressMap "in" "dp0s1" (history .empty steps) := by
  let steps := bindingRun [[Scenario.ingressMap "in" "voice" 1], [Scenario.ingressMap "in" "voice" 2]]
  let run := runFrom? ((new .packets).withMembership .empty) (applying steps)
  have hbound : run.any (fun st => decide (.bind .ingress "in" 0 ∈ Held.none.replay st.2 "dp0s1")) = true := by
    decide +kernel
  obtain ⟨⟨m, log⟩, h, hmem⟩ := (Option.any_eq_true _ _).mp hbound
  obtain ⟨s, _, hiff⟩ := bind_mem_run_iff h
  exact ⟨m, log, h, ((hiff "dp0s1" .ingress "in" 0).mp (of_decide_eq_true hmem)).2⟩

/-- A map that goes and comes back is not bound again by the port that carries it. -/
theorem exists_bind_not_mem_run : ∃ steps m log s,
    runFrom? ((new .packets).withMembership .empty) (applying steps) = some (m, log) ∧
    m.snapshot m.lastApplied = .ok s ∧ s.Binds "dp0s1" .ingress ⟨"in", 0⟩ ∧
    (∃ o, s.catalogue.object? .ingressMap "in" = some o) ∧
    .bind .ingress "in" 0 ∉ Held.none.replay log "dp0s1" := by
  let map := Scenario.ingressMap "in" "voice" 1
  let steps := bindingRun [[map], [], [map]]
  let run := runFrom? ((new .packets).withMembership .empty) (applying steps)
  let current := run.bind fun st => (st.1.snapshot st.1.lastApplied).toOption
  have hlost : run.any (fun st => decide (.bind .ingress "in" 0 ∉ Held.none.replay st.2 "dp0s1")) = true := by
    decide +kernel
  have hbinds : current.any (fun s => (s.port? "dp0s1").any fun p =>
      decide (⟨"in", 0⟩ ∈ p.interface.mapUses .ingress)) = true := by decide +kernel
  have hdefined : current.any (fun s => (s.catalogue.object? .ingressMap "in").isSome) = true := by decide +kernel
  obtain ⟨⟨m, log⟩, h, hmem⟩ := (Option.any_eq_true _ _).mp hlost
  obtain ⟨_, s, _, hs, _⟩ := follows_of_runFrom? steps h
  have hcurrent : current = some s := by
    simp only [current, run, h, Option.bind_some, hs]
    rfl
  rw [hcurrent, Option.any_some] at hbinds hdefined
  obtain ⟨p, hp, hu⟩ := (Option.any_eq_true _ _).mp hbinds
  exact ⟨steps, m, log, s, h, hs, ⟨p, hp, of_decide_eq_true hu⟩, Option.isSome_iff_exists.mp hdefined,
    of_decide_eq_true hmem⟩

end Manager
end QosControl
