import QosControl.Manager

/-! # The ends of a call

A call of a manager is rejected while it is planned, refused by a dataplane, or delivered. What
a call returns, remembers and leaves behind is a matter of its end, so what holds of all calls is
proved end by end.
-/
namespace QosControl.Manager
open Json

variable {m : Manager}

/-- How the application of a tree ends, with what it returns. -/
inductive Applied (m : Manager) (tree : Value) (s : Surroundings) :
    Outcome Plan × Manager × Surroundings → Prop
  | rejected {f : Fault} : m.plan tree = .error f → Applied m tree s (.error f, m, s)
  | refused {plan : Plan} {ds : List Dataplane} {f : Fault} : m.plan tree = .ok plan →
    Dataplane.deliver plan.commands s.dataplanes = (ds, some f) →
      Applied m tree s (.error f, m, { s with dataplanes := ds })
  | unsaved {plan : Plan} {ds : List Dataplane} {f : Fault} : m.plan tree = .ok plan →
    Dataplane.deliver plan.commands s.dataplanes = (ds, none) →
    { m with lastApplied := tree }.persist s = .error f →
      Applied m tree s (.error f, { m with lastApplied := tree }, { s with dataplanes := ds })
  | saved {plan : Plan} {ds : List Dataplane} {state : StateFile} : m.plan tree = .ok plan →
    Dataplane.deliver plan.commands s.dataplanes = (ds, none) →
    { m with lastApplied := tree }.persist s = .ok state →
      Applied m tree s (.ok plan, { m with lastApplied := tree }, { s with dataplanes := ds, state })

theorem applied (m : Manager) (tree : Value) (s : Surroundings) : Applied m tree s (m.apply tree s) := by
  unfold apply
  cases hplan : m.plan tree with
  | error f => exact .rejected hplan
  | ok plan =>
    rcases hsent : Dataplane.deliver plan.commands s.dataplanes with ⟨ds, _ | f⟩
    · simp only [hsent]
      cases hsaved : { m with lastApplied := tree }.persist s with
      | error f => exact .unsaved hplan hsent hsaved
      | ok state => exact .saved hplan hsent hsaved
    · simp only [hsent]
      exact .refused hplan hsent

/-- How a change of membership ends, with what it returns. -/
inductive Changed (m : Manager) (membership : Membership) (s : Surroundings) :
    Outcome Plan × Manager × Surroundings → Prop
  | rejected {f : Fault} :
    Plan.forMembershipChange m.lastApplied m.membership membership m.platform = .error f →
      Changed m membership s (.error f, m, s)
  | refused {plan : Plan} {ds : List Dataplane} {f : Fault} :
    Plan.forMembershipChange m.lastApplied m.membership membership m.platform = .ok plan →
    Dataplane.deliver plan.commands s.dataplanes = (ds, some f) →
      Changed m membership s (.error f, m, { s with dataplanes := ds })
  | accepted {plan : Plan} {ds : List Dataplane} :
    Plan.forMembershipChange m.lastApplied m.membership membership m.platform = .ok plan →
    Dataplane.deliver plan.commands s.dataplanes = (ds, none) →
      Changed m membership s (.ok plan, m.withMembership membership, { s with dataplanes := ds })

theorem changed (m : Manager) (membership : Membership) (s : Surroundings) :
    Changed m membership s (m.changeMembership membership s) := by
  unfold changeMembership
  cases hplan : Plan.forMembershipChange m.lastApplied m.membership membership m.platform with
  | error f => exact .rejected hplan
  | ok plan =>
    rcases hsent : Dataplane.deliver plan.commands s.dataplanes with ⟨ds, _ | f⟩
    · simp only [hsent]
      exact .accepted hplan hsent
    · simp only [hsent]
      exact .refused hplan hsent

end QosControl.Manager
