import Mathlib.Data.List.Induction
import QosControl.Proofs.Calls
import QosControl.Proofs.Tracking

/-! # Runs of a manager

A run is a sequence of calls that were accepted, with the log of all that they
delivered. Applying a tree keeps the log in step with the snapshot in force. A change
of LAG membership delivers nothing about objects, so it keeps the log in step exactly
when it leaves every map held back, or not, as it was.
-/
namespace QosControl
open Json

namespace Dataplane
variable {cs : List Command}

end Dataplane

inductive Call where
  | apply (tree : Value) (s : Surroundings)
  | changeMembership (membership : Membership) (s : Surroundings)

/-- Whether a membership lists every port under one LAG at most. -/
def Membership.Exclusive (m : Membership) : Prop :=
  ∀ g ∈ m.groups.entries, ∀ h ∈ m.groups.entries, ∀ x ∈ g.2, ∀ y ∈ h.2, x.port = y.port → g.1 = h.1

instance (m : Membership) : Decidable m.Exclusive :=
  inferInstanceAs (Decidable (∀ g ∈ m.groups.entries, ∀ h ∈ m.groups.entries, ∀ x ∈ g.2, ∀ y ∈ h.2, _ → _))

namespace Manager

def call (m : Manager) : Call → Outcome Plan × Manager × Surroundings
  | .apply tree s => m.apply tree s
  | .changeMembership membership s => m.changeMembership membership s

def step? (state : Manager × List Instruction) (c : Call) : Option (Manager × List Instruction) :=
  match state.1.call c with
  | (.ok plan, m, _) => some (m, state.2 ++ plan.instructions)
  | (.error _, _, _) => none

/-- The manager and the log after calls that are all accepted, from a manager that has sent nothing. -/
def runFrom? (start : Manager) (calls : List Call) : Option (Manager × List Instruction) :=
  calls.foldlM step? (start, [])

/-- The manager and the log after calls that are all accepted, from the empty configuration. -/
def run? (platform : LimitCapability) (calls : List Call) : Option (Manager × List Instruction) :=
  calls.foldlM step? (new platform, [])

variable {m n : Manager} {plan : Plan} {s t : Surroundings}

theorem plan_eq_ok {tree : Value} (h : m.plan tree = .ok plan) : ∃ before after,
    m.snapshot m.lastApplied = .ok before ∧ m.snapshot tree = .ok after ∧
      plan = Plan.between before after m.platform := by
  obtain ⟨after, hafter, h⟩ := Outcome.bind_eq_ok.mp h
  obtain ⟨_, _, h⟩ := Outcome.bind_eq_ok.mp h
  obtain ⟨before, hbefore, h⟩ := Outcome.bind_eq_ok.mp h
  cases h
  exact ⟨before, after, hbefore, hafter, rfl⟩

theorem apply_eq_ok {tree : Value} (h : m.apply tree s = (.ok plan, n, t)) :
    m.plan tree = .ok plan ∧ n = { m with lastApplied := tree } ∧
      Dataplane.deliver plan.commands s.dataplanes = (t.dataplanes, none) := by
  have hend := m.applied tree s
  rw [h] at hend
  cases hend with
  | saved hplan hsent _ => exact ⟨hplan, rfl, hsent⟩

theorem changeMembership_eq_ok {membership : Membership}
    (h : m.changeMembership membership s = (.ok plan, n, t)) :
    Plan.forMembershipChange m.lastApplied m.membership membership m.platform = .ok plan ∧
      n = m.withMembership membership ∧
      Dataplane.deliver plan.commands s.dataplanes = (t.dataplanes, none) := by
  have hend := m.changed membership s
  rw [h] at hend
  cases hend with
  | accepted hplan hsent => exact ⟨hplan, rfl, hsent⟩

theorem runFrom?_concat {start : Manager} {calls : List Call} {c : Call} {log : List Instruction} :
    runFrom? start (calls ++ [c]) = some (n, log) ↔ ∃ m before plan t,
      runFrom? start calls = some (m, before) ∧ m.call c = (.ok plan, n, t) ∧
        log = before ++ plan.instructions := by
  rw [runFrom?, List.foldlM_append, ← runFrom?]
  constructor
  · intro h
    obtain ⟨⟨m, before⟩, hm, h⟩ := Option.bind_eq_some_iff.mp h
    simp only [List.foldlM_cons, List.foldlM_nil, step?] at h
    rcases hc : m.call c with ⟨_ | plan, k, t⟩
    · simp [hc] at h
    · simp only [hc] at h
      cases h
      exact ⟨m, before, plan, t, hm, hc, rfl⟩
  · rintro ⟨m, before, plan, t, hm, hc, rfl⟩
    simp [hm, step?, hc]

theorem run?_concat {platform : LimitCapability} {calls : List Call} {c : Call} {log : List Instruction} :
    run? platform (calls ++ [c]) = some (n, log) ↔ ∃ m before plan t, run? platform calls = some (m, before) ∧
      m.call c = (.ok plan, n, t) ∧ log = before ++ plan.instructions :=
  runFrom?_concat

end Manager

namespace Catalogue

theorem object?_link (c : Catalogue) (is js : List Interface) (kind : ObjectKind) (name : String) :
    ((c.link is).object? kind name).map (fun o => (o.lines, o.deferrable)) =
      ((c.link js).object? kind name).map fun o => (o.lines, o.deferrable) := by
  cases kind <;>
    simp only [object?, link, bindAll, Table.get?_mapEntries, Option.map_map, Function.comp_def, Shared.entry,
      Shared.object_addUsers]

theorem outgoing_self (c : Catalogue) : c.outgoing c = [] := by
  simp only [outgoing, QosControl.outgoing_self, List.map_nil, List.append_nil]

theorem incoming_self (c : Catalogue) : c.incoming c = [] := by
  simp only [incoming, QosControl.incoming_self, List.map_nil, List.append_nil]

end Catalogue

namespace Snapshot
variable {tree : Value} {a b : Option Membership} {s t : Snapshot}

/-- Whether two snapshots are made of the same objects. -/
def Siblings (s t : Snapshot) : Prop := ∃ c r q, s = ofParts c r ∧ t = ofParts c q

theorem siblings_of_ofTree (hs : ofTree tree a = .ok s)
    (ht : ofTree tree b = .ok t) : Siblings s t := by
  obtain ⟨c, hc, hs⟩ := Outcome.bind_eq_ok.mp hs
  obtain ⟨r, _, hs⟩ := Outcome.bind_eq_ok.mp hs
  cases hs
  obtain ⟨d, hd, ht⟩ := Outcome.bind_eq_ok.mp ht
  obtain ⟨q, _, ht⟩ := Outcome.bind_eq_ok.mp ht
  cases ht
  cases hc.symm.trans hd
  exact ⟨c, r, q, rfl, rfl⟩

theorem Siblings.object? (h : Siblings s t) (kind : ObjectKind) (name : String) :
    (s.catalogue.object? kind name).map (fun o => (o.lines, o.deferrable)) =
      (t.catalogue.object? kind name).map fun o => (o.lines, o.deferrable) := by
  obtain ⟨c, r, q, rfl, rfl⟩ := h
  exact c.object?_link r.interfaces q.interfaces kind name

end Snapshot

namespace Plan
open Snapshot

theorem idle_of_catalogue_eq {old new : Snapshot} (h : old.catalogue = new.catalogue)
    (hnew : new.catalogue.Named) (platform : LimitCapability) : Idle (between old new platform).instructions := by
  obtain ⟨stages⟩ := nonempty_stages (h ▸ hnew) hnew platform
  intro i hi kind name
  refine stages.not_touches ?_ ?_ i hi
  · rw [h, Catalogue.outgoing_self]
    exact List.not_mem_nil
  · rw [h, Catalogue.incoming_self]
    exact List.not_mem_nil

theorem idle_forMembershipChange {tree : Value} {old new : Membership} {platform : LimitCapability} {plan : Plan}
    (h : forMembershipChange tree old new platform = .ok plan) : Idle plan.instructions ∧
      ∃ before after, ofTree tree (some old) = .ok before ∧ ofTree tree (some new) = .ok after := by
  obtain ⟨before, hbefore, h⟩ := Outcome.bind_eq_ok.mp h
  obtain ⟨after, hafter, h⟩ := Outcome.bind_eq_ok.mp h
  cases h
  obtain ⟨hm, hi, he, ha⟩ := (Read.tree hafter).linked.named
  refine ⟨?_, before, after, hbefore, hafter⟩
  apply idle_of_catalogue_eq
  · rfl
  · exact ⟨hm, hi, he, ha⟩

end Plan

theorem Tracks.congr {s t : Snapshot} {log : List Instruction} (h : Tracks s log)
    (hsame : ∀ (m : PortMapKind) name,
      (s.catalogue.object? m.objectKind name).map (fun o => (o.lines, o.deferred)) =
        (t.catalogue.object? m.objectKind name).map fun o => (o.lines, o.deferred)) : Tracks t log where
  live m name := by
    have hlive : ∀ c : Catalogue, c.live m.objectKind name =
        ((c.object? m.objectKind name).map fun o => (o.lines, o.deferred)).any fun x => !x.2 := by
      intro c
      rw [Catalogue.live, Option.any_map]
    rw [h.live, hlive, hlive, hsame]
  current m name o ho hd := by
    have hs := hsame m name
    rw [ho, Option.map_some, Option.map_eq_some_iff] at hs
    obtain ⟨p, hp, hpo⟩ := hs
    obtain ⟨hlines, hdeferred⟩ := Prod.mk.inj hpo
    exact hlines ▸ h.current m name p hp (hdeferred.trans hd)

namespace Manager
open Snapshot

/-- The maps of the configuration in force are there as they should be: with their lines
where an interface binds them, and not at all where they are held back. -/
def Synced (m : Manager) (log : List Instruction) : Prop :=
  ∃ s, m.snapshot m.lastApplied = .ok s ∧ ∀ (k : PortMapKind) name o,
    s.catalogue.object? k.objectKind name = some o →
      (∀ p ∈ s.ports, s.catalogue.Refers p.interface k.objectKind name → InForce log k.objectKind name o.lines) ∧
      (o.deferred = true → Ledger.none.replay log k.objectKind name = false)

/-- Whether another membership leaves every map of the configuration in force held back, or not, as it was. -/
def KeepsDeferred (m : Manager) (membership : Membership) : Prop :=
  ∀ s t, m.snapshot m.lastApplied = .ok s → (m.withMembership membership).snapshot m.lastApplied = .ok t →
    ∀ (k : PortMapKind) name o p, s.catalogue.object? k.objectKind name = some o →
      t.catalogue.object? k.objectKind name = some p → o.deferred = p.deferred

/-- Whether a call is not a change of membership that gives a map its first binding or takes its last. -/
def Keeps (m : Manager) : Call → Prop
  | .apply _ _ => True
  | .changeMembership membership _ => m.KeepsDeferred membership

/-- The log tracks the configuration in force. -/
def Tracked (m : Manager) (log : List Instruction) : Prop :=
  ∃ s, m.snapshot m.lastApplied = .ok s ∧ Tracks s log

variable {m n : Manager} {plan : Plan} {t : Surroundings} {log : List Instruction}

theorem synced_of_tracked (h : m.Tracked log) : m.Synced log := by
  obtain ⟨s, hs, htracks⟩ := h
  refine ⟨s, hs, fun k name o ho => ⟨fun p hp hr => ?_, fun hd => ?_⟩⟩
  · have husers : o.users ≠ [] := (Read.tree hs).linked.users_ne_nil hp hr ho
    refine htracks.current k name o ho ?_
    rw [ObjectEntry.deferred, List.isEmpty_eq_false_iff.mpr husers, Bool.and_false]
  · rw [htracks.live, Catalogue.live, ho]
    simp [hd]

theorem tracked_of_apply {tree : Value} {s : Surroundings} (hm : m.Tracked log)
    (h : m.apply tree s = (.ok plan, n, t)) : n.Tracked (log ++ plan.instructions) := by
  obtain ⟨hplan, rfl, _⟩ := apply_eq_ok h
  obtain ⟨before, after, hbefore, hafter, rfl⟩ := plan_eq_ok hplan
  obtain ⟨s, hs, htracks⟩ := hm
  cases hs.symm.trans hbefore
  exact ⟨after, hafter, htracks.append_between (.tree hbefore) (.tree hafter) m.platform⟩

section ChangeMembership
variable {membership : Membership} {s : Surroundings}

theorem tracked_of_changeMembership (hm : m.Tracked log) (h : m.changeMembership membership s = (.ok plan, n, t))
    (hkeeps : m.KeepsDeferred membership) : n.Tracked (log ++ plan.instructions) := by
  obtain ⟨hplan, rfl, _⟩ := changeMembership_eq_ok h
  obtain ⟨hidle, before, after, hbefore, hafter⟩ := Plan.idle_forMembershipChange hplan
  obtain ⟨s, hs, htracks⟩ := hm
  cases hs.symm.trans hbefore
  refine ⟨after, hafter, (htracks.append_idle hidle).congr fun k name => ?_⟩
  have hsame := (siblings_of_ofTree hbefore hafter).object? k.objectKind name
  cases ho : before.catalogue.object? k.objectKind name with
  | none =>
    rw [ho, Option.map_none, eq_comm, Option.map_eq_none_iff] at hsame
    rw [hsame]
  | some o =>
    rw [ho, Option.map_some, eq_comm, Option.map_eq_some_iff] at hsame
    obtain ⟨p, hp, hpo⟩ := hsame
    rw [hp, Option.map_some, Option.map_some, hkeeps before after hs hafter k name o p ho hp, (Prod.mk.inj hpo).1]

theorem keepsDeferred_of_synced (hm : m.Tracked log) (h : m.changeMembership membership s = (.ok plan, n, t))
    (hsync : n.Synced (log ++ plan.instructions)) : m.KeepsDeferred membership := by
  obtain ⟨hplan, rfl, _⟩ := changeMembership_eq_ok h
  obtain ⟨hidle, _⟩ := Plan.idle_forMembershipChange hplan
  obtain ⟨s, hs, htracks⟩ := hm
  intro s' after hs' hafter k name o p ho hp
  cases hs.symm.trans hs'
  obtain ⟨after', hafter', hsync⟩ := hsync
  cases hafter.symm.trans hafter'
  have hsame := (siblings_of_ofTree hs hafter).object? k.objectKind name
  rw [ho, hp, Option.map_some, Option.map_some, Option.some.injEq, Prod.mk.injEq] at hsame
  obtain ⟨hbound, hheld⟩ := hsync k name p hp
  have hlive : Ledger.none.replay (log ++ plan.instructions) k.objectKind name = !o.deferred := by
    rw [Ledger.replay_append, hidle.replay, htracks.live, Catalogue.live, ho, Option.any_some]
  cases hd : p.deferred with
  | true =>
    rw [hheld hd] at hlive
    simpa using hlive.symm
  | false =>
    cases husers : p.users with
    | nil =>
      -- a map that is not held back without users never is
      have hdeferrable : p.deferrable = false := by simpa [ObjectEntry.deferred, husers] using hd
      rw [ObjectEntry.deferred, hsame.2, hdeferrable, Bool.false_and]
    | cons b bs =>
      obtain ⟨q, hq, _, hr⟩ := (((Read.tree hafter).linked.users _ _ p hp).2 b).mp (husers ▸ List.mem_cons_self)
      have hforce := hbound q hq ⟨b.vlan, hr⟩
      rw [hforce.replay (Catalogue.lines_ne_nil k.objectKind_ne_markMap hp)] at hlive
      simpa using hlive.symm

theorem keepsDeferred_of_maps_eq (h : ∀ s t, m.snapshot m.lastApplied = .ok s →
      (m.withMembership membership).snapshot m.lastApplied = .ok t →
        s.catalogue.ingressMaps = t.catalogue.ingressMaps ∧ s.catalogue.egressMaps = t.catalogue.egressMaps) :
    m.KeepsDeferred membership := by
  intro s t hs ht k name o p ho hp
  obtain ⟨hingress, hegress⟩ := h s t hs ht
  have hsame : s.catalogue.object? k.objectKind name = t.catalogue.object? k.objectKind name := by
    cases k with
    | ingress => exact congrArg (fun maps => (maps.get? name).map Shared.entry) hingress
    | egress => exact congrArg (fun maps => (maps.get? name).map Shared.entry) hegress
  rw [ho, hp] at hsame
  rw [Option.some.inj hsame]

end ChangeMembership

/-- A call leaves a tracked configuration in step exactly when it keeps what is held back,
and then the log tracks the next one. -/
theorem synced_call_iff {c : Call} (hm : m.Tracked log) (h : m.call c = (.ok plan, n, t)) :
    (n.Synced (log ++ plan.instructions) ↔ m.Keeps c) ∧ (m.Keeps c → n.Tracked (log ++ plan.instructions)) := by
  cases c with
  | apply tree s =>
    have htracked := tracked_of_apply hm h
    exact ⟨⟨fun _ => trivial, fun _ => synced_of_tracked htracked⟩, fun _ => htracked⟩
  | changeMembership membership s =>
    have htracked := tracked_of_changeMembership hm h
    exact ⟨⟨keepsDeferred_of_synced hm h, fun hk => synced_of_tracked (htracked hk)⟩, htracked⟩

theorem tracked_new (platform : LimitCapability) : (new platform).Tracked [] := by
  refine ⟨ofParts .empty .empty, rfl, fun k name => ?_, fun k name o ho => ?_⟩
  · cases k <;> rfl
  · cases k <;> cases ho

section Run
variable {platform : LimitCapability}

theorem exists_run?_of_append {before after : List Call} (h : run? platform (before ++ after) = some (m, log)) :
    ∃ n lines, run? platform before = some (n, lines) := by
  rw [run?, List.foldlM_append, ← run?] at h
  obtain ⟨⟨n, lines⟩, hn, _⟩ := Option.bind_eq_some_iff.mp h
  exact ⟨n, lines, hn⟩

theorem tracked_of_keeps (calls : List Call) (hkeeps : ∀ before c after n lines, calls = before ++ c :: after →
      run? platform before = some (n, lines) → n.Keeps c) (h : run? platform calls = some (m, log)) :
    m.Tracked log := by
  induction calls using List.reverseRecOn generalizing m log with
  | nil =>
    cases h
    exact tracked_new platform
  | append_singleton calls c ih =>
    obtain ⟨n, lines, plan, t, hn, hc, rfl⟩ := run?_concat.mp h
    have htracked : n.Tracked lines := by
      refine ih (fun before d after k ls hcalls hk => ?_) hn
      exact hkeeps before d (after ++ [c]) k ls (by simp [hcalls]) hk
    exact (synced_call_iff htracked hc).2 (hkeeps calls c [] n lines rfl hn)

theorem tracked_of_synced (calls : List Call) (hsync : ∀ before after n lines, calls = before ++ after →
      run? platform before = some (n, lines) → n.Synced lines) (h : run? platform calls = some (m, log)) :
    m.Tracked log := by
  induction calls using List.reverseRecOn generalizing m log with
  | nil =>
    cases h
    exact tracked_new platform
  | append_singleton calls c ih =>
    obtain ⟨n, lines, plan, t, hn, hc, rfl⟩ := run?_concat.mp h
    have htracked : n.Tracked lines := by
      refine ih (fun before after k ls hcalls hk => ?_) hn
      exact hsync before (after ++ [c]) k ls (by simp [hcalls]) hk
    -- in step after the call, it kept what was held back
    have hstep := synced_call_iff htracked hc
    exact hstep.2 (hstep.1.mp (hsync _ [] _ _ (by simp) h))

/-- The maps follow the configuration in force after every call of a run exactly when no
change of membership in it gives a map its first binding or takes its last. -/
theorem synced_iff_keeps {calls : List Call} (h : run? platform calls = some (m, log)) :
    (∀ before after n lines, calls = before ++ after → run? platform before = some (n, lines) →
      n.Synced lines) ↔
    ∀ before c after n lines, calls = before ++ c :: after → run? platform before = some (n, lines) →
      n.Keeps c := by
  constructor
  · intro hsync before c after n lines hcalls hn
    have hsplit : calls = (before ++ [c]) ++ after := by simp [hcalls]
    obtain ⟨k, ls, hk⟩ := exists_run?_of_append (hsplit ▸ h)
    obtain ⟨n', lines', plan, t, hn', hc, rfl⟩ := run?_concat.mp hk
    cases hn.symm.trans hn'
    have htracked : n.Tracked lines := by
      refine tracked_of_synced before (fun as bs k' ls' hbefore hk' => ?_) hn
      exact hsync as (bs ++ c :: after) k' ls' (by simp [hcalls, hbefore]) hk'
    exact (synced_call_iff htracked hc).1.mp (hsync _ after _ _ hsplit hk)
  · intro hkeeps before after n lines hcalls hn
    refine synced_of_tracked (tracked_of_keeps before (fun as c bs k ls hbefore hk => ?_) hn)
    exact hkeeps as c (bs ++ after) k ls (by simp [hcalls, hbefore]) hk

end Run

def willing : Surroundings := ⟨[.accepting], .absent, .absent⟩

/-- A LAG that carries the given maps, and an ingress map beside it. -/
def laggedTree (maps : List (String × String)) : Value := Scenario.tree { Scenario.empty with
  policies := [Scenario.simplePolicy "p1" "1Gbit" "prof" "1Gbit"]
  ingressMaps := [Scenario.ingressMap "in" "voice" 1]
  dscpGroups := [Scenario.dscpGroup "voice" ["46"]]
  lags := [Scenario.port "dp0bond0" "p1" maps] }

def firstMember (maps : List (String × String)) : List Call :=
  [.apply (laggedTree maps) willing, .changeMembership (.ofPorts [("dp0bond0", ["dp0s1"])]) willing]

theorem synced_iff_keeps_firstMember : ∃ m log, run? .packets (firstMember []) = some (m, log) ∧
    ∀ before after n lines, firstMember [] = before ++ after → run? .packets before = some (n, lines) →
      n.Synced lines := by
  let members := Membership.ofPorts [("dp0bond0", ["dp0s1"])]
  obtain ⟨⟨m, log⟩, h⟩ := Option.isSome_iff_exists.mp
    (by decide +kernel : (run? .packets (firstMember [])).isSome = true)
  have hmaps : (run? .packets [.apply (laggedTree []) willing]).all (fun st =>
      (st.1.snapshot st.1.lastApplied).toOption.all fun s =>
        ((st.1.withMembership members).snapshot st.1.lastApplied).toOption.all fun t =>
          decide (s.catalogue.ingressMaps = t.catalogue.ingressMaps ∧
            s.catalogue.egressMaps = t.catalogue.egressMaps)) = true := by decide +kernel
  refine ⟨m, log, h, (synced_iff_keeps h).mpr fun before c after n lines hcalls hn => ?_⟩
  -- the one change of membership is the second call
  rcases before with _ | ⟨a, _ | ⟨b, before⟩⟩
  · cases hcalls
    exact trivial
  · cases hcalls
    rw [hn, Option.all_some] at hmaps
    refine keepsDeferred_of_maps_eq fun s t hs ht => ?_
    rw [hs] at hmaps
    simp only [Except.toOption, Option.all_some] at hmaps
    rw [ht] at hmaps
    exact of_decide_eq_true hmaps
  · simp [firstMember] at hcalls

/-- A map that the first port of a LAG binds is never defined. -/
theorem not_synced_firstMember : ∃ calls m log, run? .packets calls = some (m, log) ∧
    (∀ membership s, .changeMembership membership s ∈ calls → membership.Exclusive) ∧ ¬ m.Synced log := by
  let calls := firstMember [(Schema.ingressMap, "in")]
  obtain ⟨⟨m, log⟩, h⟩ := Option.isSome_iff_exists.mp (by decide +kernel : (run? .packets calls).isSome = true)
  have hgone : (run? .packets calls).any (fun st => Ledger.none.replay st.2 .ingressMap "in") = false := by
    decide +kernel
  have hused : ((run? .packets calls).bind fun st => (st.1.snapshot st.1.lastApplied).toOption.bind fun s =>
      s.catalogue.object? .ingressMap "in").any (fun o => !o.users.isEmpty) = true := by
    decide +kernel
  refine ⟨calls, m, log, h, ?_, ?_⟩
  · intro membership s hmem
    simp only [calls, firstMember, List.mem_cons, List.not_mem_nil, or_false, reduceCtorEq, false_or,
      Call.changeMembership.injEq] at hmem
    rw [hmem.1]
    decide +kernel
  · rintro ⟨s, hs, hsync⟩
    rw [h, Option.any_some] at hgone
    simp only [h, hs, Option.bind_some, Except.toOption] at hused
    cases ho : s.catalogue.object? .ingressMap "in" with
    | none => simp [ho] at hused
    | some o =>
      obtain ⟨b, bs, hb⟩ := List.exists_cons_of_ne_nil (by simpa [ho] using hused : o.users ≠ [])
      obtain ⟨q, hq, _, hr⟩ := (((Read.tree hs).linked.users _ _ o ho).2 b).mp (hb ▸ List.mem_cons_self)
      have hforce : InForce log .ingressMap "in" o.lines := (hsync .ingress "in" o ho).1 q hq ⟨b.vlan, hr⟩
      exact absurd (hforce.replay (Catalogue.lines_ne_nil (by simp) ho) Ledger.none) (by simp [hgone])

end Manager
end QosControl
