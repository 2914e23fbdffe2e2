import QosControl.Proofs.Idempotence
import QosControl.Proofs.Rereading

/-! # The order of lists

A configuration that is applied again with its keyed lists in another order makes no difference:
it can be read, and the plan is empty. The profiles of a port may get other numbers in the second
snapshot, but numbers take no part in comparing ports.
-/
namespace QosControl
open Json

namespace Snapshot

/-- The order of global profiles and who uses what leave objects alike. -/
theorem alike_ofParts (c : Catalogue) (order : List String) (r q : Roster) :
    Alike (ofParts c r) (ofParts { c with profileOrder := order } q) where
  agrees :=
    { platform := rfl
      policies := (c.agrees_link r.interfaces q.interfaces).policies
      profiles := (c.agrees_link r.interfaces q.interfaces).profiles
      objects := (c.agrees_link r.interfaces q.interfaces).objects }
  object? := c.object?_link r.interfaces q.interfaces
  refersAt_iff {i _ _ _} :=
    Catalogue.refersAt_congr ((c.shapers_link r.interfaces i).trans (c.shapers_link q.interfaces i).symm)

theorem samePorts_ofParts {c d : Catalogue} {r q : Roster} (h : ∀ name, r.interface? name = q.interface? name) :
    SamePorts (ofParts c r) (ofParts d q) := by
  intro ifname
  rw [port?_ofParts, port?_ofParts, Option.map_map, Option.map_map, h]
  rfl

end Snapshot

namespace Plan
open Snapshot
variable {tree : Value} {membership : Option Membership} {old : Snapshot}

/-- A configuration that was read is read again in any order of its keyed lists, of which its own
is one, and the plan from one to the other sends nothing and opens no pass. -/
theorem commands_eq_nil_of_reordered (hm : ∀ m ∈ membership, m.Exclusive)
    (hold : ofTree tree membership = .ok old) (platform : LimitCapability) :
    Reordered.tree tree tree ∧ ∀ tree', Reordered.tree tree tree' →
      ∃ new, ofTree tree' membership = .ok new ∧ (between old new platform).commands = [] ∧
        ∀ ds, Dataplane.deliver (between old new platform).commands ds = (ds, none) := by
  refine ⟨Reordered.tree_refl tree, fun tree' h => ?_⟩
  obtain ⟨c, hc, hold'⟩ := Outcome.bind_eq_ok.mp hold
  obtain ⟨r, hr, hold'⟩ := Outcome.bind_eq_ok.mp hold'
  cases hold'
  obtain ⟨order, hc'⟩ := Catalogue.ofTree_reordered h hc
  obtain ⟨q, hq, hsame⟩ := Roster.ofTree_reordered hm h hr
  have hnew : ofTree tree' membership = .ok (ofParts { c with profileOrder := order } q) :=
    Outcome.bind_eq_ok.mpr ⟨_, hc', Outcome.bind_eq_ok.mpr ⟨q, hq, rfl⟩⟩
  have hnil := commands_eq_nil (Read.tree hold).linked (Read.tree hnew).linked (samePorts_ofParts hsame)
    (alike_ofParts c order r q) platform
  refine ⟨_, hnew, hnil, fun ds => ?_⟩
  rw [hnil, Dataplane.deliver_nil]

def listing (policies lags ports : List Value) : Value := .object [
  (Schema.policy, .object [(Schema.qos, .object [("name", .array policies)])]),
  (Schema.interfaces, .object [(Schema.bonding, .array lags), (Schema.dataplane, .array ports)])]

theorem reordered_listing {ps qs ls ms is js : List Value}
    (hpolicies : Rearranged (fun v => v.text? "id") Reordered.policy ps qs)
    (hlags : KeyedPerm (fun v => v.text? "tagnode") ls ms) (hports : KeyedPerm (fun v => v.text? "tagnode") is js) :
    Reordered.tree (listing ps ls is) (listing qs ms js) := by
  have hpermuted : ∀ {as bs : List Value}, KeyedPerm (fun v => v.text? "tagnode") as bs →
      Reordered.named "tagnode" Eq (.array as) (.array bs) :=
    fun h => .list ⟨_, h, List.forall₂_same.mpr fun _ _ => rfl⟩
  have hqos : Reordered.qos (.object [("name", .array ps)]) (.object [("name", .array qs)]) :=
    .of_forall₂ (by simp) (by simp [Reordered.named, ListsBy.same])
      (.cons ⟨rfl, .inr ⟨_, List.mem_cons_self, .list hpolicies⟩⟩ .nil)
  have hpolicy : FieldsBy [(Schema.qos, Reordered.qos), (Schema.action, Reordered.action)]
      (.object [(Schema.qos, .object [("name", .array ps)])]) (.object [(Schema.qos, .object [("name", .array qs)])]) :=
    .of_forall₂ (by decide) (by simp [Reordered.qos_refl, Reordered.action_refl])
      (.cons ⟨rfl, .inr ⟨_, List.mem_cons_self, hqos⟩⟩ .nil)
  have hinterfaces : Reordered.interfaces (.object [(Schema.bonding, .array ls), (Schema.dataplane, .array is)])
      (.object [(Schema.bonding, .array ms), (Schema.dataplane, .array js)]) := by
    refine .of_forall₂ (by decide) (by simp [Reordered.named, ListsBy.same]) ?_
    exact .cons ⟨rfl, .inr ⟨_, by simp, hpermuted hlags⟩⟩ (.cons ⟨rfl, .inr ⟨_, by simp, hpermuted hports⟩⟩ .nil)
  refine .of_forall₂ (by decide) ?_ ?_
  · simp [Reordered.policyNode_refl, Reordered.resources_refl, Reordered.interfaces_refl]
  · exact .cons ⟨rfl, .inr ⟨_, by simp, hpolicy⟩⟩ (.cons ⟨rfl, .inr ⟨_, by simp, hinterfaces⟩⟩ .nil)

theorem commands_eq_nil_of_reordered_listing :
    let p1 := Scenario.simplePolicy "p1" "1Gbit" "prof" "1Gbit"
    let p2 := Scenario.globalPolicy "p2" "shared" [(1, "shared"), (2, "shared")]
    let lag := Scenario.port "dp0bond0" "p1" []
    let spare := Scenario.port "dp0bond1" "p2" []
    let port := Scenario.port "dp0s1" "p1" []
    let other := Scenario.port "dp0s2" "p2" []
    let members := some (Membership.ofPorts [("dp0bond0", ["dp0s3"]), ("dp0bond1", ["dp0s4"])])
    ∃ old new, ofTree (listing [p1, p2] [lag, spare] [port, other]) members = .ok old ∧
      ofTree (listing [p2, p1] [spare, lag] [other, port]) members = .ok new ∧ old.ports ≠ [] ∧
      (between old new .packets).commands = [] := by
  intro p1 p2 lag spare port other members
  have hread : (ofTree (listing [p1, p2] [lag, spare] [port, other]) members).toOption.any
      (fun s => !s.ports.isEmpty) = true := by decide +kernel
  obtain ⟨old, hold, hports⟩ := (Option.any_eq_true _ _).mp hread
  have hold := Outcome.eq_ok_of_toOption hold
  have hm : ∀ m ∈ members, m.Exclusive := by
    intro m hm
    cases Option.mem_some.mp hm
    decide +kernel
  have hpolicies : KeyedPerm (fun v => v.text? "id") [p1, p2] [p2, p1] := .swap [] [] (by decide +kernel)
  have hlags : KeyedPerm (fun v => v.text? "tagnode") [lag, spare] [spare, lag] := .swap [] [] (by decide +kernel)
  have hswapped : KeyedPerm (fun v => v.text? "tagnode") [port, other] [other, port] := .swap [] [] (by decide +kernel)
  have hlisting : Rearranged (fun v => v.text? "id") Reordered.policy [p1, p2] [p2, p1] :=
    ⟨_, hpolicies, List.forall₂_same.mpr fun v _ => Reordered.policy_refl v⟩
  obtain ⟨new, hnew, hnil, _⟩ := (commands_eq_nil_of_reordered hm hold .packets).2 _
    (reordered_listing hlisting hlags hswapped)
  exact ⟨old, new, hold, hnew, by simpa using hports, hnil⟩

end Plan
end QosControl
