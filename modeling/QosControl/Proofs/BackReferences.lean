import Mathlib.Data.List.Dedup
import QosControl.Plan
import QosControl.Proofs.Tables

/-! # Back references

The users of an object are exactly the places of the snapshot that refer to it, each
once. A reference is read off an interface and the shapers of its subports; users
are filled in when a configuration is linked.
-/
namespace QosControl
open Json

theorem Outcome.bind_eq_ok {α β : Type} {x : Outcome α} {f : α → Outcome β} {b : β} :
    (x >>= f) = .ok b ↔ ∃ a, x = .ok a ∧ f a = .ok b := by
  cases x with
  | error e => exact ⟨nofun, nofun⟩
  | ok a =>
    constructor
    · intro h
      exact ⟨a, rfl, h⟩
    · rintro ⟨_, h, hb⟩
      cases h
      exact hb

theorem Outcome.eq_ok_of_toOption {α : Type} {x : Outcome α} {a : α} (h : x.toOption = some a) : x = .ok a := by
  cases x with
  | error e => cases h
  | ok b =>
    cases h
    rfl

namespace Shared
variable {α β : Type} [DecidableEq β]

theorem object_addUsers (s : Shared α β) (bs : List β) : (s.addUsers bs).object = s.object := by
  induction bs generalizing s with
  | nil => rfl
  | cons b bs ih =>
    rw [addUsers, List.foldl_cons, ← addUsers, ih, addUser]
    split <;> rfl

theorem mem_users_addUser {s : Shared α β} {a b : β} : a ∈ (s.addUser b).users ↔ a ∈ s.users ∨ a = b := by
  rw [addUser]
  split
  next h => exact ⟨.inl, fun ha => ha.elim id fun hab => hab ▸ h⟩
  next h => simp

theorem mem_users_addUsers {s : Shared α β} {bs : List β} {a : β} :
    a ∈ (s.addUsers bs).users ↔ a ∈ s.users ∨ a ∈ bs := by
  induction bs generalizing s with
  | nil => simp [addUsers]
  | cons b bs ih =>
    rw [addUsers, List.foldl_cons, ← addUsers, ih, mem_users_addUser, List.mem_cons, or_assoc]

theorem nodup_users_addUsers {s : Shared α β} (bs : List β) (h : s.users.Nodup) :
    (s.addUsers bs).users.Nodup := by
  induction bs generalizing s with
  | nil => exact h
  | cons b bs ih =>
    rw [addUsers, List.foldl_cons, ← addUsers]
    refine ih ?_
    rw [addUser]
    split
    next => exact h
    next hb =>
      refine List.nodup_append.mpr ⟨h, List.nodup_singleton b, fun a ha c hc => ?_⟩
      exact fun hac => hb (List.mem_singleton.mp hc ▸ hac ▸ ha)

end Shared

theorem Shaper.mem_actionGroups {s : Shaper} {name : String} :
    name ∈ s.actionGroups ↔ ∃ c ∈ s.classes, ∃ r ∈ c.rules, r.actionGroup = some name := by
  simp only [actionGroups, mem_sortedKeys, List.mem_flatMap, RuleClass.actionGroups, List.mem_filterMap]

/-- What is compared and replayed of a shared object of any kind. -/
structure ObjectEntry where
  /-- The lines that define it. -/
  lines : List String
  deferrable : Bool
  users : List Binding
deriving DecidableEq

/-- Whether an object is held back until something binds it. -/
def ObjectEntry.deferred (o : ObjectEntry) : Bool := o.deferrable && o.users.isEmpty

def Shared.entry {α : Type} [Provisioned α] (s : Shared α Binding) : ObjectEntry where
  lines := Provisioned.lines s.object
  deferrable := Provisioned.deferrable s.object
  users := s.users

namespace Catalogue

/-- The object of a kind and a name. -/
def object? (c : Catalogue) (kind : ObjectKind) (name : String) : Option ObjectEntry :=
  match kind with
  | .markMap => (c.markMaps.get? name).map Shared.entry
  | .ingressMap => (c.ingressMaps.get? name).map Shared.entry
  | .egressMap => (c.egressMaps.get? name).map Shared.entry
  | .actionGroup => (c.actionGroups.get? name).map Shared.entry

/-- Whether the subport on a VLAN of an interface, or the VLAN itself, names an object. -/
def RefersAt (c : Catalogue) (i : Interface) (vlan : Nat) (kind : ObjectKind) (name : String) : Prop :=
  match kind with
  | .markMap => ∃ x ∈ c.shapers i, x.1.vlan = vlan ∧ x.2.markMap = some name
  | .ingressMap => ⟨name, vlan⟩ ∈ i.mapUses .ingress
  | .egressMap => ⟨name, vlan⟩ ∈ i.mapUses .egress
  | .actionGroup => ∃ x ∈ c.shapers i, x.1.vlan = vlan ∧ name ∈ x.2.actionGroups

/-- Whether an interface names an object anywhere. -/
def Refers (c : Catalogue) (i : Interface) (kind : ObjectKind) (name : String) : Prop :=
  ∃ vlan, c.RefersAt i vlan kind name

/-- Objects as they are read: under their own names and without users. -/
def Unlinked {α : Type} [Provisioned α] (t : Objects α) : Prop :=
  ∀ name s, t.get? name = some s → s.name = name ∧ s.users = []

/-- A catalogue before it is linked. -/
structure Fresh (c : Catalogue) : Prop where
  policies : ∀ name s, c.policies.get? name = some s → s.users = []
  markMaps : Unlinked c.markMaps
  ingressMaps : Unlinked c.ingressMaps
  egressMaps : Unlinked c.egressMaps
  actionGroups : Unlinked c.actionGroups
  order : ∀ name, name ∈ c.profileOrder ↔ c.profiles.contains name = true

theorem unused_of_readNamed {α β : Type} {name : α → String} {read : Value → Outcome α} {vs : List Value}
    {t : Table String (Shared α β)} (h : readNamed name read vs = .ok t) {n : String} {s : Shared α β}
    (hs : t.get? n = some s) : name s.object = n ∧ s.users = [] := by
  obtain ⟨as, _, ht⟩ := Outcome.bind_eq_ok.mp h
  cases ht
  obtain ⟨a, _, ha⟩ := List.mem_map.mp (Table.mem_of_get?_ofList hs)
  cases ha
  exact ⟨rfl, rfl⟩

theorem fresh_of_ofTree {tree : Value} {c : Catalogue} (h : ofTree tree = .ok c) : c.Fresh := by
  obtain ⟨policies, hpolicies, h⟩ := Outcome.bind_eq_ok.mp h
  obtain ⟨profiles, _, h⟩ := Outcome.bind_eq_ok.mp h
  obtain ⟨markMaps, hmark, h⟩ := Outcome.bind_eq_ok.mp h
  obtain ⟨ingressMaps, hingress, h⟩ := Outcome.bind_eq_ok.mp h
  obtain ⟨egressMaps, hegress, h⟩ := Outcome.bind_eq_ok.mp h
  obtain ⟨actionGroups, haction, h⟩ := Outcome.bind_eq_ok.mp h
  cases h
  refine ⟨fun n s hs => (unused_of_readNamed hpolicies hs).2, fun n s => unused_of_readNamed hmark,
    fun n s => unused_of_readNamed hingress, fun n s => unused_of_readNamed hegress,
    fun n s => unused_of_readNamed haction, fun n => ?_⟩
  rw [List.mem_eraseDups, Table.ofNamed, Table.contains_ofList]
  simp

theorem fresh_empty : empty.Fresh := by
  refine ⟨?_, ?_, ?_, ?_, ?_, ?_⟩ <;> simp [empty, Table.empty, Table.get?, Table.contains, Unlinked]

section Link
variable (c : Catalogue) (is : List Interface)

theorem policy?_link (name : String) : (c.link is).policy? name = c.policy? name := by
  simp only [policy?, link, Table.get?_mapEntries, Option.map_map]
  exact congrArg (fun f => Option.map f (c.policies.get? name)) (funext fun s => s.object_addUsers _)

theorem shapers_link (i : Interface) : (c.link is).shapers i = c.shapers i := by
  simp only [shapers, shaper?, policy?_link]

/-- Linking gives no interface other profile numbers. -/
theorem profileIndex_link (i : Interface) : (c.link is).profileIndex i = c.profileIndex i := by
  simp only [profileIndex, shapers_link]
  rfl

end Link

section Places
variable {α : Type} [Provisioned α] {objects : Objects α} {is : List Interface}
  {places : String → Interface → List Binding}

theorem users_bindAll (h : Unlinked objects) {name : String} {s : Shared α Binding}
    (hs : (bindAll objects is places).get? name = some s) :
    s.name = name ∧ s.users.Nodup ∧ ∀ b, b ∈ s.users ↔ ∃ i ∈ is, b ∈ places name i := by
  rw [bindAll, Table.get?_mapEntries] at hs
  obtain ⟨o, ho, rfl⟩ := Option.map_eq_some_iff.mp hs
  obtain ⟨hname, husers⟩ := h name o ho
  refine ⟨?_, ?_, fun b => ?_⟩
  · rw [Shared.name, Shared.object_addUsers, ← Shared.name, hname]
  · exact Shared.nodup_users_addUsers _ (husers ▸ List.nodup_nil)
  · rw [Shared.mem_users_addUsers, husers, List.mem_flatMap]
    simp

end Places

theorem mem_shaperBindings {c : Catalogue} {uses : Shaper → Bool} {i : Interface} {b : Binding} :
    b ∈ c.shaperBindings uses i ↔
      i.name = b.ifname ∧ ∃ x ∈ c.shapers i, x.1.vlan = b.vlan ∧ uses x.2 = true := by
  simp only [shaperBindings, List.mem_map, List.mem_filter]
  constructor
  · rintro ⟨x, ⟨hx, hu⟩, rfl⟩
    exact ⟨rfl, x, hx, rfl, hu⟩
  · rintro ⟨hi, x, hx, hv, hu⟩
    exact ⟨x, ⟨hx, hu⟩, by rw [hi, hv]⟩

theorem mem_mapBindings {kind : PortMapKind} {map : String} {i : Interface} {b : Binding} :
    b ∈ mapBindings kind map i ↔ i.name = b.ifname ∧ ⟨map, b.vlan⟩ ∈ i.mapUses kind := by
  simp only [mapBindings, List.mem_map, List.mem_filter, decide_eq_true_eq]
  constructor
  · rintro ⟨u, ⟨hu, rfl⟩, rfl⟩
    exact ⟨rfl, hu⟩
  · rintro ⟨hi, hu⟩
    exact ⟨⟨map, b.vlan⟩, ⟨hu, rfl⟩, by rw [hi]⟩

/-- Tables that list objects under their own names. -/
structure Named (c : Catalogue) : Prop where
  markMaps : ∀ name s, c.markMaps.get? name = some s → s.name = name
  ingressMaps : ∀ name s, c.ingressMaps.get? name = some s → s.name = name
  egressMaps : ∀ name s, c.egressMaps.get? name = some s → s.name = name
  actionGroups : ∀ name s, c.actionGroups.get? name = some s → s.name = name

theorem named_link {c : Catalogue} (h : c.Fresh) (is : List Interface) : (c.link is).Named where
  markMaps _ _ hs := (users_bindAll h.markMaps hs).1
  ingressMaps _ _ hs := (users_bindAll h.ingressMaps hs).1
  egressMaps _ _ hs := (users_bindAll h.egressMaps hs).1
  actionGroups _ _ hs := (users_bindAll h.actionGroups hs).1

/-- The users of a linked object are the places that refer to it, each once. -/
theorem users_link {c : Catalogue} (h : c.Fresh) {is : List Interface} {kind : ObjectKind} {name : String}
    {o : ObjectEntry} (ho : (c.link is).object? kind name = some o) :
    o.users.Nodup ∧ ∀ b, b ∈ o.users ↔
      ∃ i ∈ is, i.name = b.ifname ∧ (c.link is).RefersAt i b.vlan kind name := by
  cases kind with
  | markMap =>
    obtain ⟨s, hs, rfl⟩ := Option.map_eq_some_iff.mp ho
    obtain ⟨_, hnd, hu⟩ := users_bindAll h.markMaps hs
    refine ⟨hnd, fun b => (hu b).trans ?_⟩
    simp [mem_shaperBindings, RefersAt, shapers_link]
  | ingressMap =>
    obtain ⟨s, hs, rfl⟩ := Option.map_eq_some_iff.mp ho
    obtain ⟨_, hnd, hu⟩ := users_bindAll h.ingressMaps hs
    refine ⟨hnd, fun b => (hu b).trans ?_⟩
    simp [mem_mapBindings, RefersAt]
  | egressMap =>
    obtain ⟨s, hs, rfl⟩ := Option.map_eq_some_iff.mp ho
    obtain ⟨_, hnd, hu⟩ := users_bindAll h.egressMaps hs
    refine ⟨hnd, fun b => (hu b).trans ?_⟩
    simp [mem_mapBindings, RefersAt]
  | actionGroup =>
    obtain ⟨s, hs, rfl⟩ := Option.map_eq_some_iff.mp ho
    obtain ⟨_, hnd, hu⟩ := users_bindAll h.actionGroups hs
    refine ⟨hnd, fun b => (hu b).trans ?_⟩
    simp [mem_shaperBindings, RefersAt, shapers_link]

/-- The users of a linked policy are the interfaces with a subport that names it. -/
theorem policyUsers_link {c : Catalogue} (h : c.Fresh) {is : List Interface} {name : String}
    {s : Shared Policy String} (hs : (c.link is).policies.get? name = some s) (ifname : String) :
    ifname ∈ s.users ↔ ∃ i ∈ is, i.name = ifname ∧ name ∈ i.policies := by
  rw [link, Table.get?_mapEntries] at hs
  obtain ⟨o, ho, rfl⟩ := Option.map_eq_some_iff.mp hs
  rw [Shared.mem_users_addUsers, h.policies name o ho]
  simp only [List.not_mem_nil, false_or, List.mem_map, List.mem_filter, List.contains_iff_mem]
  exact ⟨fun ⟨i, ⟨hi, hn⟩, he⟩ => ⟨i, hi, he, hn⟩, fun ⟨i, hi, he, hn⟩ => ⟨i, ⟨hi, hn⟩, he⟩⟩

end Catalogue

namespace Snapshot

/-- The snapshots of configurations: the empty one, and those that are read from trees. -/
inductive Read : Snapshot → Prop
  | empty : Read .empty
  | tree {tree : Value} {membership : Option Membership} {s : Snapshot} :
    ofTree tree membership = .ok s → Read s

/-- What linking establishes, in terms of the snapshot alone. -/
structure Linked (s : Snapshot) : Prop where
  named : s.catalogue.Named
  order : ∀ name, name ∈ s.catalogue.profileOrder ↔ s.catalogue.profiles.contains name = true
  index : ∀ p ∈ s.ports, p.index = s.catalogue.profileIndex p.interface
  users : ∀ kind name o, s.catalogue.object? kind name = some o → o.users.Nodup ∧
    ∀ b, b ∈ o.users ↔ ∃ p ∈ s.ports, p.name = b.ifname ∧ s.catalogue.RefersAt p.interface b.vlan kind name
  policyUsers : ∀ name q, s.catalogue.policies.get? name = some q →
    ∀ ifname, ifname ∈ q.users ↔ ∃ p ∈ s.ports, p.name = ifname ∧ name ∈ p.interface.policies

theorem Linked.users_ne_nil {s : Snapshot} (h : s.Linked) {p : Port} (hp : p ∈ s.ports) {kind : ObjectKind}
    {name : String} (hr : s.catalogue.Refers p.interface kind name) {o : ObjectEntry}
    (ho : s.catalogue.object? kind name = some o) : o.users ≠ [] := by
  obtain ⟨vlan, hr⟩ := hr
  have hmem : ⟨p.name, vlan⟩ ∈ o.users := ((h.users kind name o ho).2 _).mpr ⟨p, hp, rfl, hr⟩
  exact List.ne_nil_of_mem hmem

theorem linked_ofParts {c : Catalogue} (h : c.Fresh) (r : Roster) : (ofParts c r).Linked where
  named := Catalogue.named_link h r.interfaces
  order := h.order
  index := by
    intro p hp
    obtain ⟨i, _, rfl⟩ := List.mem_map.mp hp
    exact (c.profileIndex_link r.interfaces i).symm
  users := by
    intro kind name o ho
    obtain ⟨hnd, hu⟩ := Catalogue.users_link h ho
    refine ⟨hnd, fun b => (hu b).trans ?_⟩
    simp [ofParts, Port.name]
  policyUsers := by
    intro name q hq ifname
    rw [Catalogue.policyUsers_link h hq]
    simp [ofParts, Port.name]

theorem Read.linked {s : Snapshot} (h : s.Read) : s.Linked := by
  cases h with
  | empty => exact linked_ofParts Catalogue.fresh_empty Roster.empty
  | tree h =>
    obtain ⟨c, hc, h⟩ := Outcome.bind_eq_ok.mp h
    obtain ⟨r, _, h⟩ := Outcome.bind_eq_ok.mp h
    cases h
    exact linked_ofParts (Catalogue.fresh_of_ofTree hc) r

/-- The snapshot of a tree, empty if the tree cannot be read. -/
def orEmpty (tree : Value) (membership : Option Membership) : Snapshot :=
  (ofTree tree membership).toOption.getD .empty

theorem read_orEmpty (tree : Value) (membership : Option Membership) : (orEmpty tree membership).Read := by
  rw [orEmpty]
  cases h : ofTree tree membership with
  | error e => exact .empty
  | ok s => exact .tree h

theorem port?_eq_some_iff {s : Snapshot} {name : String} {p : Port} :
    s.port? name = some p ↔ p ∈ s.ports ∧ p.name = name := by
  constructor
  · intro h
    exact ⟨List.mem_of_find?_eq_some h, by simpa using List.find?_some h⟩
  · rintro ⟨hp, rfl⟩
    obtain ⟨q, hq⟩ : ∃ q, s.port? p.name = some q := by
      refine Option.isSome_iff_exists.mp (List.find?_isSome.mpr ⟨p, hp, by simp⟩)
    have hqn : q.name = p.name := by simpa using List.find?_some hq
    have hqp : q = p := List.inj_on_of_nodup_map s.distinct (List.mem_of_find?_eq_some hq) hp hqn
    exact hqp ▸ hq

end Snapshot
end QosControl
