import QosControl.Proofs.Checked
import QosControl.Proofs.MemberPorts
import QosControl.Proofs.ProfileNumbers

/-! # Subports

The subports of an interface are numbered in order, and number zero is the trunk on VLAN zero. In a
configuration that passes the check each of them has a shaper, whose classes are in ascending order.
-/
namespace QosControl
open Json

namespace Attachment
variable {trunk : Attachment} {vlans : List Attachment}

theorem subports_eq_or (trunk : Attachment) (vlans : List Attachment) : subports trunk vlans = [] ∨
    subports trunk vlans = (trunk :: vlans.filter (·.policy.isSome)).mapIdx fun n a => ⟨n, a.vlan, a.policy⟩ := by
  by_cases h : trunk.policy.isSome || !(vlans.filter (·.policy.isSome)).isEmpty
  · exact .inr (if_pos h)
  · exact .inl (if_neg h)

theorem numbers_subports : (subports trunk vlans).map (·.number) = List.range (subports trunk vlans).length := by
  rcases subports_eq_or trunk vlans with h | h
  · rw [h]
    rfl
  · rw [h]
    generalize trunk :: vlans.filter (·.policy.isSome) = attachments
    refine List.ext_getElem (by simp) fun n hn _ => ?_
    rw [List.getElem_map, List.getElem_mapIdx, List.getElem_range]

theorem vlan_of_mem_subports {x : Subport} (hx : x ∈ subports trunk vlans) (hnumber : x.number = 0) :
    x.vlan = trunk.vlan := by
  rcases subports_eq_or trunk vlans with h | h
  · rw [h] at hx
    cases hx
  · rw [h] at hx
    obtain ⟨n, hn, rfl⟩ := List.mem_mapIdx.mp hx
    have hn : n = 0 := hnumber
    subst hn
    rfl

end Attachment

namespace Interface

/-- Whether subports are numbered in order, number zero being the trunk on VLAN zero. -/
structure Numbered (i : Interface) : Prop where
  numbers : i.subports.map (·.number) = List.range i.subports.length
  trunk : ∀ x ∈ i.subports, x.number = 0 → x.vlan = 0

theorem numbered_of_ofEntry? {name : String} {kind : InterfaceKind} {v : Value} {i : Interface}
    (h : ofEntry? name kind v = .ok (some i)) : i.Numbered := by
  obtain ⟨vlans, _, h⟩ := Outcome.bind_eq_ok.mp h
  obtain ⟨_, h⟩ := Option.ite_none_left_eq_some.mp (Except.ok.inj h)
  cases h
  exact ⟨Attachment.numbers_subports, fun x hx => Attachment.vlan_of_mem_subports hx⟩

end Interface

namespace Roster
variable {r : Roster} {i : Interface}

theorem interface?_of_mem (h : i ∈ r.interfaces) : r.interface? i.name = some i := by
  obtain ⟨j, hj⟩ : ∃ j, r.interface? i.name = some j :=
    Option.isSome_iff_exists.mp (List.find?_isSome.mpr ⟨i, h, by simp⟩)
  have hname : j.name = i.name := by simpa using List.find?_some hj
  have hji : j = i := List.inj_on_of_nodup_map r.distinct (List.mem_of_find?_eq_some hj) h hname
  rw [hj, hji]

theorem exists_ofEntry?_of_mem_ofLag {membership : Option Membership} {lag : Value} {is : List Interface}
    (his : ofLag membership lag = .ok is) (hi : i ∈ is) :
    ∃ name kind, Interface.ofEntry? name kind lag = .ok (some i) := by
  cases membership with
  | none =>
    obtain ⟨j, hj, his⟩ := Outcome.bind_eq_ok.mp his
    cases his
    cases Option.mem_toList.mp hi
    obtain ⟨name, _, hj⟩ := Outcome.bind_eq_ok.mp hj
    exact ⟨name, .bonding, hj⟩
  | some m =>
    obtain ⟨group, hgroup, _⟩ := Outcome.bind_eq_ok.mp his
    obtain ⟨x, _, hx⟩ := (mem_ofLag hgroup his).mp hi
    obtain ⟨name, _, hx⟩ := Outcome.bind_eq_ok.mp hx
    exact ⟨x.port, .memberOf name, hx⟩

/-- Every interface is made of an entry. -/
theorem exists_ofEntry? {tree : Value} {membership : Option Membership} (h : ofTree tree membership = .ok r)
    (hi : i ∈ r.interfaces) : ∃ name kind v, Interface.ofEntry? name kind v = .ok (some i) := by
  obtain ⟨lags, hlags, h⟩ := Outcome.bind_eq_ok.mp h
  obtain ⟨ports, hports, h⟩ := Outcome.bind_eq_ok.mp h
  cases h
  have hfind := interface?_of_mem hi
  rw [interface?_foldl_add, interface?_foldl_put, Option.or_eq_some_iff, Option.or_eq_some_iff] at hfind
  rcases hfind with (hlag | ⟨_, hempty⟩) | ⟨_, hport⟩
  · have hmem := List.mem_reverse.mp (List.mem_of_find?_eq_some hlag)
    obtain ⟨is, his, hmem⟩ := List.mem_flatten.mp hmem
    obtain ⟨lag, _, hlag⟩ := (Outcome.mem_of_mapM hlags is).mp his
    obtain ⟨name, kind, hentry⟩ := exists_ofEntry?_of_mem_ofLag hlag hmem
    exact ⟨name, kind, lag, hentry⟩
  · cases hempty
  · have hmem := List.mem_of_find?_eq_some hport
    rw [List.mem_filterMap] at hmem
    obtain ⟨_, hmem, rfl⟩ := hmem
    obtain ⟨v, _, hv⟩ := (Outcome.mem_of_mapM hports _).mp hmem
    obtain ⟨name, _, hv⟩ := Outcome.bind_eq_ok.mp hv
    exact ⟨name, .dataplane, v, hv⟩

end Roster

theorem Shaper.ascending_of_ofValue {v : Value} {s : Shaper} (h : ofValue v = .ok s) :
    s.classes.Pairwise fun a b => a.id ≤ b.id := by
  obtain ⟨profiles, _, h⟩ := Outcome.bind_eq_ok.mp h
  obtain ⟨classes, _, h⟩ := Outcome.bind_eq_ok.mp h
  obtain ⟨trafficClasses, _, h⟩ := Outcome.bind_eq_ok.mp h
  cases h
  exact pairwise_mergeSort_by (·.id) classes

namespace Catalogue
variable {c : Catalogue} {i : Interface}

theorem fst_of_mem_shapers {x : Subport × Shaper} (hx : x ∈ c.shapers i) :
    x.1 ∈ i.subports ∧ c.shaper? x.1 = some x.2 := by
  obtain ⟨subport, hsub, hs⟩ := List.mem_filterMap.mp hx
  obtain ⟨shaper, hshaper, rfl⟩ := Option.map_eq_some_iff.mp hs
  exact ⟨hsub, hshaper⟩

/-- If the policies that an interface names are defined, none of its subports is left out. -/
theorem fst_shapers_eq (h : ∀ name ∈ i.policies, c.policies.contains name = true) :
    (c.shapers i).map (·.1) = i.subports := by
  rw [shapers, List.map_filterMap]
  refine (List.filterMap_congr fun x hx => ?_).trans List.filterMap_some
  rw [Option.map_map]
  cases hp : x.policy with
  | none =>
    simp only [shaper?, hp]
    rfl
  | some name =>
    obtain ⟨s, hs⟩ := Table.contains_iff.mp (h name (List.mem_filterMap.mpr ⟨x, hx, hp⟩))
    simp only [shaper?, hp, policy?, hs]
    rfl

theorem ascending_of_ofTree {tree : Value} (h : ofTree tree = .ok c) {name : String} {policy : Policy}
    (hpolicy : c.policy? name = some policy) : policy.shaper.classes.Pairwise fun a b => a.id ≤ b.id := by
  obtain ⟨policies, hpolicies, h⟩ := Outcome.bind_eq_ok.mp h
  obtain ⟨profiles, _, h⟩ := Outcome.bind_eq_ok.mp h
  obtain ⟨markMaps, _, h⟩ := Outcome.bind_eq_ok.mp h
  obtain ⟨ingressMaps, _, h⟩ := Outcome.bind_eq_ok.mp h
  obtain ⟨egressMaps, _, h⟩ := Outcome.bind_eq_ok.mp h
  obtain ⟨actionGroups, _, h⟩ := Outcome.bind_eq_ok.mp h
  cases h
  obtain ⟨read, hread, hpolicies⟩ := Outcome.bind_eq_ok.mp hpolicies
  cases hpolicies
  obtain ⟨o, ho, rfl⟩ := Option.map_eq_some_iff.mp hpolicy
  obtain ⟨q, hq, heq⟩ := List.mem_map.mp (Table.mem_of_get?_ofList ho)
  cases heq
  obtain ⟨v, _, hv⟩ := (Outcome.mem_of_mapM hread q).mp hq
  obtain ⟨n, _, hv⟩ := Outcome.bind_eq_ok.mp hv
  obtain ⟨s, hs, hv⟩ := Outcome.bind_eq_ok.mp hv
  cases hv
  exact Shaper.ascending_of_ofValue hs

end Catalogue

namespace Snapshot
variable {s : Snapshot} {p : Port}

/-- The snapshots of configurations, of which only some interfaces may have been kept. -/
inductive Kept : Snapshot → Prop
  | read {s : Snapshot} : s.Read → Kept s
  | retain {s : Snapshot} (names : List String) : Kept s → Kept (s.retain names)

/-- What the numbers in the lines of a snapshot rest on. -/
structure Orderly (s : Snapshot) : Prop where
  order : ∀ name, name ∈ s.catalogue.profileOrder ↔ s.catalogue.profiles.contains name = true
  index : ∀ p ∈ s.ports, p.index = s.catalogue.profileIndex p.interface
  numbered : ∀ p ∈ s.ports, p.interface.Numbered
  ascending : ∀ name policy, s.catalogue.policy? name = some policy →
    policy.shaper.classes.Pairwise fun a b => a.id ≤ b.id

theorem orderly_ofParts {tree : Value} {membership : Option Membership} {c : Catalogue} {r : Roster}
    (hc : Catalogue.ofTree tree = .ok c) (hr : Roster.ofTree tree membership = .ok r) : (ofParts c r).Orderly where
  order := (linked_ofParts (Catalogue.fresh_of_ofTree hc) r).order
  index := (linked_ofParts (Catalogue.fresh_of_ofTree hc) r).index
  numbered := by
    intro p hp
    obtain ⟨i, hi, rfl⟩ := List.mem_map.mp hp
    obtain ⟨name, kind, v, hentry⟩ := Roster.exists_ofEntry? hr hi
    exact Interface.numbered_of_ofEntry? hentry
  ascending := by
    intro name policy hpolicy
    rw [ofParts, Catalogue.policy?_link] at hpolicy
    exact Catalogue.ascending_of_ofTree hc hpolicy

theorem Read.orderly (h : s.Read) : s.Orderly := by
  cases h with
  | empty => exact ⟨Read.empty.linked.order, nofun, nofun, nofun⟩
  | tree h =>
    obtain ⟨c, hc, h⟩ := Outcome.bind_eq_ok.mp h
    obtain ⟨r, hr, h⟩ := Outcome.bind_eq_ok.mp h
    cases h
    exact orderly_ofParts hc hr

theorem Orderly.retain (h : s.Orderly) (names : List String) : (s.retain names).Orderly where
  order := h.order
  index := by
    intro p hp
    have hshapers : (s.retain names).catalogue.shapers p.interface = s.catalogue.shapers p.interface :=
      Catalogue.shapers_congr fun name _ => policy?_retain s names name
    rw [h.index p (List.mem_filter.mp hp).1]
    exact Catalogue.profileIndex_congr hshapers.symm (fun _ _ => rfl) rfl
  numbered := by
    intro p hp
    exact h.numbered p (List.mem_filter.mp hp).1
  ascending := by
    intro name policy hpolicy
    rw [policy?_retain] at hpolicy
    exact h.ascending name policy hpolicy

theorem Kept.orderly (h : s.Kept) : s.Orderly := by
  induction h with
  | read h => exact h.orderly
  | retain names _ ih => exact ih.retain names

theorem fst_shapers_of_check (h : s.check = .ok ()) (hp : p ∈ s.ports) :
    (s.catalogue.shapers p.interface).map (·.1) = p.interface.subports :=
  Catalogue.fst_shapers_eq fun _ hname => contains_of_check h hp hname

end Snapshot
end QosControl
