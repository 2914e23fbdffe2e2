import QosControl.Proofs.Bindings
import QosControl.Proofs.Checked

/-! # What is known of the configuration in force

A tree is checked when it is applied, under the membership of that time, and a change of
membership checks nothing. The rules on objects do not depend on who is a member of what, so they
hold of the configuration in force after every call. What a change of membership can break is the
rule on ports: it can bring a port that names a policy which is not there.
-/
namespace QosControl
open Json

namespace Catalogue

/-- The rules on objects have nothing to do with the interfaces that use them. -/
theorem failures_link (c : Catalogue) (is : List Interface) : (c.link is).failures = c.failures := by
  have hobjects : ∀ {α β : Type} [DecidableEq β] (t : Table String (Shared α β)) (users : String → List β)
      (f : α → List CheckFailure), ((t.mapEntries fun name s => s.addUsers (users name)).values.flatMap
        fun s => f s.object) = t.values.flatMap fun s => f s.object := by
    intro α β _ t users f
    simp only [Table.values, Table.mapEntries, List.flatMap_map, Shared.object_addUsers]
  have hpolicies := hobjects c.policies
    (fun name => (is.filter fun i => i.policies.contains name).map (·.name)) fun p => p.failures c.profiles
  have hgroups := hobjects c.actionGroups
    (fun name => is.flatMap (c.shaperBindings fun s => s.actionGroups.contains name)) ActionGroup.failures
  exact congrArg₂ (fun ps gs => ps ++ _ ++ gs) hpolicies hgroups

end Catalogue

theorem Snapshot.Siblings.failures {s t : Snapshot} (h : Siblings s t) :
    s.catalogue.failures = t.catalogue.failures := by
  obtain ⟨c, r, q, rfl, rfl⟩ := h
  exact (c.failures_link r.interfaces).trans (c.failures_link q.interfaces).symm

namespace Manager
open Snapshot
variable {m : Manager}

def after (m : Manager) (calls : List Call) : Manager := calls.foldl (fun m c => (m.call c).2.1) m

theorem after_concat (m : Manager) (calls : List Call) (c : Call) :
    m.after (calls ++ [c]) = ((m.after calls).call c).2.1 := by
  simp only [after, List.foldl_append, List.foldl_cons, List.foldl_nil]

/-- Whether the configuration in force can be read, and its objects break no rule. -/
def Sound (m : Manager) : Prop :=
  ∃ s, m.snapshot m.lastApplied = .ok s ∧ s.catalogue.failures = []

theorem sound_new (platform : LimitCapability) (membership : Membership) :
    ((new platform).withMembership membership).Sound :=
  ⟨ofParts .empty .empty, ofTree_emptyTree membership, rfl⟩

theorem check_of_plan {tree : Value} {plan : Plan} (h : m.plan tree = .ok plan) :
    ∃ s, m.snapshot tree = .ok s ∧ s.check = .ok () := by
  obtain ⟨s, hs, h⟩ := Outcome.bind_eq_ok.mp h
  obtain ⟨⟨⟩, hcheck, _⟩ := Outcome.bind_eq_ok.mp h
  exact ⟨s, hs, hcheck⟩

/-- Whatever comes of an application, the configuration in force is the one before or one that
was checked. -/
theorem Sound.apply (h : m.Sound) (tree : Value) (u : Surroundings) : (m.apply tree u).2.1.Sound := by
  have hnext : ∀ {plan : Plan}, m.plan tree = .ok plan → { m with lastApplied := tree }.Sound := by
    intro plan hplan
    obtain ⟨s, hs, hcheck⟩ := check_of_plan hplan
    exact ⟨s, hs, (check_eq_ok_iff_policiesDefined.mp hcheck).1⟩
  have hend := m.applied tree u
  generalize m.apply tree u = x at hend
  cases hend with
  | rejected _ => exact h
  | refused _ _ => exact h
  | unsaved hplan _ _ => exact hnext hplan
  | saved hplan _ _ => exact hnext hplan

theorem Sound.changeMembership (h : m.Sound) (membership : Membership) (u : Surroundings) :
    (m.changeMembership membership u).2.1.Sound := by
  have hend := m.changed membership u
  generalize m.changeMembership membership u = x at hend
  cases hend with
  | rejected _ => exact h
  | refused _ _ => exact h
  | accepted hplan _ =>
    obtain ⟨_, before, after, hbefore, hafter⟩ := Plan.idle_forMembershipChange hplan
    obtain ⟨s, hs, hfailures⟩ := h
    cases hs.symm.trans hbefore
    exact ⟨after, hafter, (siblings_of_ofTree hbefore hafter).failures ▸ hfailures⟩

theorem Sound.after (h : m.Sound) (calls : List Call) : (m.after calls).Sound := by
  induction calls using List.reverseRecOn with
  | nil => exact h
  | append_singleton calls c ih =>
    rw [after_concat]
    cases c with
    | apply tree u => exact ih.apply tree u
    | changeMembership membership u => exact ih.changeMembership membership u

theorem check_of_apply {tree : Value} {u : Surroundings} {plan : Plan} (h : (m.apply tree u).1 = .ok plan) :
    ∃ s, (m.apply tree u).2.1.snapshot (m.apply tree u).2.1.lastApplied = .ok s ∧ s.check = .ok () := by
  obtain ⟨hplan, hn, _⟩ := apply_eq_ok (Prod.ext h rfl : m.apply tree u = (.ok plan, _, _))
  obtain ⟨s, hs, hcheck⟩ := check_of_plan hplan
  rw [hn]
  exact ⟨s, hs, hcheck⟩

/-- After every run of calls the configuration in force can be read. It passes the check exactly
when every policy that its ports name is defined, and it does so after a tree was accepted. -/
theorem check_after_iff (platform : LimitCapability) (membership : Membership) (calls : List Call) :
    let start := (new platform).withMembership membership
    ∃ s, (start.after calls).snapshot (start.after calls).lastApplied = .ok s ∧
      (s.check = .ok () ↔ s.PoliciesDefined) ∧
      ∀ before tree u plan, calls = before ++ [.apply tree u] →
        ((start.after before).apply tree u).1 = .ok plan → s.check = .ok () := by
  intro start
  obtain ⟨s, hs, hfailures⟩ := (sound_new platform membership).after calls
  refine ⟨s, hs, ?_, ?_⟩
  · rw [check_eq_ok_iff_policiesDefined]
    exact and_iff_right hfailures
  · rintro before tree u plan rfl haccepted
    obtain ⟨t, ht, hcheck⟩ := check_of_apply haccepted
    rw [after_concat] at hs
    cases hs.symm.trans ht
    exact hcheck

theorem check_after_iff_firstMember :
    let start := (new .packets).withMembership .empty
    let applied := start.after [.apply (laggedTree []) willing]
    let joined := start.after (firstMember [])
    (∃ s, applied.snapshot applied.lastApplied = .ok s ∧ s.check = .ok ()) ∧
      ∃ s, joined.snapshot joined.lastApplied = .ok s ∧ s.port? "dp0s1" ≠ none ∧ s.check = .ok () := by
  intro start applied joined
  constructor
  · obtain ⟨s, hs, _, haccepted⟩ := check_after_iff .packets .empty [.apply (laggedTree []) willing]
    have hok : (start.apply (laggedTree []) willing).1.toOption.isSome = true := by decide +kernel
    obtain ⟨plan, hplan⟩ := Option.isSome_iff_exists.mp hok
    exact ⟨s, hs, haccepted [] _ _ plan rfl (Outcome.eq_ok_of_toOption hplan)⟩
  · obtain ⟨s, hs, hiff, _⟩ := check_after_iff .packets .empty (firstMember [])
    have hport : (joined.snapshot joined.lastApplied).toOption.any (fun s => (s.port? "dp0s1").isSome) = true := by
      decide +kernel
    have hdefined : (joined.snapshot joined.lastApplied).toOption.any (fun s => decide s.PoliciesDefined) = true := by
      decide +kernel
    have hs : joined.snapshot joined.lastApplied = .ok s := hs
    rw [hs] at hport hdefined
    exact ⟨s, hs, Option.isSome_iff_ne_none.mp hport, hiff.mpr (of_decide_eq_true hdefined)⟩

def strayTree : Value := Scenario.tree { Scenario.empty with lags := [Scenario.port "dp0bond0" "p1" []] }

/-- A LAG without ports breaks no rule, and gets a port that does. -/
theorem exists_check_ne_ok : ∃ calls m log s, run? .packets calls = some (m, log) ∧
    (∀ membership u, .changeMembership membership u ∈ calls → membership.Exclusive) ∧
    m.snapshot m.lastApplied = .ok s ∧
    s.check = .error (.check ⟨"Policy p1 is not defined", "interfaces/dp0s1/policy/qos"⟩) := by
  let members := Membership.ofPorts [("dp0bond0", ["dp0s1"])]
  let calls : List Call := [.apply strayTree willing, .changeMembership members willing]
  have hstray : (run? .packets calls).any (fun st => (st.1.snapshot st.1.lastApplied).toOption.any fun s =>
      decide (s.failures.head? = some ⟨"Policy p1 is not defined", "interfaces/dp0s1/policy/qos"⟩)) = true := by
    decide +kernel
  obtain ⟨⟨m, log⟩, hrun, hstray⟩ := (Option.any_eq_true _ _).mp hstray
  obtain ⟨s, hs, hfailure⟩ := (Option.any_eq_true _ _).mp hstray
  refine ⟨calls, m, log, s, hrun, ?_, Outcome.eq_ok_of_toOption hs, ?_⟩
  · intro membership u hmem
    simp only [calls, List.mem_cons, List.not_mem_nil, or_false, reduceCtorEq, false_or,
      Call.changeMembership.injEq] at hmem
    rw [hmem.1]
    decide +kernel
  · rw [check, of_decide_eq_true hfailure]

end Manager
end QosControl
