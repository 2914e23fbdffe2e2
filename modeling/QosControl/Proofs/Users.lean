import QosControl.Proofs.FastPath
import QosControl.Proofs.Subports

/-! # Who uses an object

The users of a policy are the ports with a subport that names it, in the order of the ports, and the
users of a shared object are the places that refer to it, each once. They are the same as if all
references were listed in one pass and then given to the objects that they name. Keeping some of the
interfaces takes the others off the policies, and leaves the rest in their order and with their lines.
-/
namespace QosControl
open Json

namespace Shared
variable {α β γ : Type} [DecidableEq β]

theorem addUsers_append (s : Shared α β) (as bs : List β) : s.addUsers (as ++ bs) = (s.addUsers as).addUsers bs :=
  List.foldl_append

theorem addUsers_replicate (s : Shared α β) (b : β) (n : Nat) :
    s.addUsers (List.replicate (n + 1) b) = s.addUser b := by
  induction n generalizing s with
  | zero => rfl
  | succ n ih =>
    have hagain : (s.addUser b).addUser b = s.addUser b := by
      rw [addUser, if_pos (mem_users_addUser.mpr (.inr rfl))]
    rw [List.replicate_succ, addUsers, List.foldl_cons, ← addUsers, ih, hagain]

theorem addUsers_flatMap_congr {f g : γ → List β}
    (h : ∀ c, ∀ s : Shared α β, s.addUsers (f c) = s.addUsers (g c)) (cs : List γ) (s : Shared α β) :
    s.addUsers (cs.flatMap f) = s.addUsers (cs.flatMap g) := by
  induction cs generalizing s with
  | nil => rfl
  | cons c cs ih => rw [List.flatMap_cons, List.flatMap_cons, addUsers_append, addUsers_append, h, ih]

theorem addUsers_named (names : γ → List String) (place : γ → β) (name : String) (cs : List γ)
    (s : Shared α β) :
    s.addUsers (((cs.flatMap fun c => (names c).map (·, place c)).filter fun r => r.1 = name).map Prod.snd) =
      s.addUsers ((cs.filter fun c => name ∈ names c).map place) := by
  induction cs generalizing s with
  | nil => rfl
  | cons c cs ih =>
    have hplaces : ((((names c).map (·, place c)).filter fun r => r.1 = name).map Prod.snd) =
        List.replicate ((names c).count name) (place c) := by
      rw [List.filter_map, List.map_map, List.count_eq_length_filter]
      exact List.map_const'
    rw [List.flatMap_cons, List.filter_append, List.map_append, hplaces, addUsers_append, ih, List.filter_cons]
    split
    next hname =>
      have hpos : 0 < (names c).count name := List.count_pos_iff.mpr (of_decide_eq_true hname)
      obtain ⟨n, hn⟩ := Nat.exists_eq_add_one.mpr hpos
      rw [hn, addUsers_replicate]
      rfl
    next hname =>
      rw [List.count_eq_zero.mpr fun hmem => hname (decide_eq_true hmem)]
      rfl

theorem users_addUsers_of_nodup {s : Shared α β} {bs : List β} (h : (s.users ++ bs).Nodup) :
    (s.addUsers bs).users = s.users ++ bs := by
  induction bs generalizing s with
  | nil => exact (List.append_nil _).symm
  | cons b bs ih =>
    have hb : b ∉ s.users := by
      intro hb
      exact (List.nodup_append.mp h).2.2 b hb b List.mem_cons_self rfl
    have hadd : (s.addUser b).users = s.users ++ [b] := by rw [addUser, if_neg hb]
    rw [List.append_cons, ← hadd] at h
    rw [addUsers, List.foldl_cons, ← addUsers, ih h, hadd, ← List.append_cons]

theorem users_foldl_dropUser (bs : List β) (s : Shared α β) :
    (bs.foldl dropUser s).users = s.users.filter (· ∉ bs) := by
  induction bs generalizing s with
  | nil => simp
  | cons b bs ih =>
    rw [List.foldl_cons, ih, dropUser, List.filter_filter]
    refine List.filter_congr fun a _ => ?_
    simp [Bool.and_comm]

end Shared

def Interface.NamesPolicy (i : Interface) (name : String) : Prop := ∃ x ∈ i.subports, x.policy = some name

instance (i : Interface) (name : String) : Decidable (i.NamesPolicy name) :=
  inferInstanceAs (Decidable (∃ x ∈ i.subports, x.policy = some name))

theorem Interface.mem_policies {i : Interface} {name : String} : name ∈ i.policies ↔ i.NamesPolicy name := by
  rw [policies, List.mem_filterMap, NamesPolicy]

namespace Catalogue

section References
variable {α β : Type} [DecidableEq β]

def give (objects : Table String (Shared α β)) (r : String × β) : Table String (Shared α β) :=
  match objects.get? r.1 with
  | some o => objects.insert r.1 (o.addUser r.2)
  | none => objects

theorem get?_foldl_give (refs : List (String × β)) (objects : Table String (Shared α β)) (name : String) :
    (refs.foldl give objects).get? name = (objects.get? name).map fun o =>
      o.addUsers ((refs.filter fun r => r.1 = name).map Prod.snd) := by
  induction refs generalizing objects with
  | nil => cases h : objects.get? name <;> simp [Shared.addUsers, h]
  | cons r refs ih =>
    have hgive : (give objects r).get? name =
        if r.1 = name then (objects.get? name).map (·.addUser r.2) else objects.get? name := by
      rw [give]
      split
      next o ho =>
        rw [Table.get?_insert]
        split
        next hname => rw [← hname, ho, Option.map_some]
        next => rfl
      next ho =>
        split
        next hname => rw [← hname, ho, Option.map_none]
        next => rfl
    rw [List.foldl_cons, ih, hgive, List.filter_cons]
    by_cases hname : r.1 = name
    · simp only [hname, decide_true, if_true, List.map_cons, Option.map_map]
      rfl
    · simp only [hname, decide_false, if_false, Bool.false_eq_true]

theorem mapEntries_eq_foldl_give {users : String → List β} {refs : List (String × β)}
    (h : ∀ name, ∀ o : Shared α β,
      o.addUsers ((refs.filter fun r => r.1 = name).map Prod.snd) = o.addUsers (users name))
    (objects : Table String (Shared α β)) :
    (objects.mapEntries fun name o => o.addUsers (users name)) = refs.foldl give objects := by
  refine Table.eq_of_get? fun name => ?_
  rw [Table.get?_mapEntries, get?_foldl_give]
  exact congrFun (congrArg Option.map (funext fun o => (h name o).symm)) _

end References

/-- The references of the shapers of an interface to what they name. -/
def shaperReferences (c : Catalogue) (names : Shaper → List String) (i : Interface) : List (String × Binding) :=
  (c.shapers i).flatMap fun p => (names p.2).map (·, ⟨i.name, p.1.vlan⟩)

def mapReferences (kind : PortMapKind) (i : Interface) : List (String × Binding) :=
  (i.mapUses kind).map fun u => (u.map, ⟨i.name, u.vlan⟩)

def policyReferences (i : Interface) : List (String × String) := i.policies.map (·, i.name)

theorem bindAll_eq_foldl_give {α : Type} {refs : Interface → List (String × Binding)}
    {places : String → Interface → List Binding}
    (h : ∀ name i, ∀ o : Shared α Binding,
      o.addUsers (((refs i).filter fun r => r.1 = name).map Prod.snd) = o.addUsers (places name i))
    (objects : Objects α) (is : List Interface) :
    bindAll objects is places = (is.flatMap refs).foldl give objects := by
  refine mapEntries_eq_foldl_give (fun name o => ?_) objects
  rw [List.filter_flatMap, List.map_flatMap]
  exact Shared.addUsers_flatMap_congr (fun i o => h name i o) is o

/-- Links a catalogue by listing all references in one pass over the interfaces and giving them to the
objects that they name. -/
def linkByReferences (c : Catalogue) (is : List Interface) : Catalogue :=
  { c with
    policies := (is.flatMap policyReferences).foldl give c.policies
    markMaps := (is.flatMap (c.shaperReferences fun s => s.markMap.toList)).foldl give c.markMaps
    actionGroups := (is.flatMap (c.shaperReferences Shaper.actionGroups)).foldl give c.actionGroups
    ingressMaps := (is.flatMap (mapReferences .ingress)).foldl give c.ingressMaps
    egressMaps := (is.flatMap (mapReferences .egress)).foldl give c.egressMaps }

theorem link_eq_linkByReferences (c : Catalogue) (is : List Interface) : c.link is = c.linkByReferences is := by
  have hpolicies : (c.policies.mapEntries fun name p =>
      p.addUsers ((is.filter fun i => i.policies.contains name).map (·.name))) =
      (is.flatMap policyReferences).foldl give c.policies := by
    refine mapEntries_eq_foldl_give (fun name o => ?_) c.policies
    refine (Shared.addUsers_named Interface.policies (·.name) name is o).trans ?_
    simp only [List.contains_eq_mem]
  have hmaps : ∀ {α : Type} (kind : PortMapKind) (objects : Objects α),
      bindAll objects is (mapBindings kind) = (is.flatMap (mapReferences kind)).foldl give objects := by
    intro α kind objects
    refine bindAll_eq_foldl_give (fun name i o => ?_) objects is
    rw [mapReferences, List.filter_map, List.map_map, mapBindings]
    rfl
  have hshapers : ∀ {α : Type} (uses : String → Shaper → Bool) (names : Shaper → List String),
      (∀ name s, uses name s = decide (name ∈ names s)) → ∀ objects : Objects α,
      bindAll objects is (fun name => c.shaperBindings (uses name)) =
        (is.flatMap (c.shaperReferences names)).foldl give objects := by
    intro α uses names huses objects
    refine bindAll_eq_foldl_give (fun name i o => ?_) objects is
    refine (Shared.addUsers_named (fun p => names p.2) (fun p => ⟨i.name, p.1.vlan⟩) name (c.shapers i) o).trans ?_
    simp only [shaperBindings, huses]
  have hmarks := hshapers (fun name s => s.markMap = some name) (fun s => s.markMap.toList)
    (fun name s => by simp [Option.mem_toList]) c.markMaps
  have hgroups := hshapers (fun name s => s.actionGroups.contains name) Shaper.actionGroups
    (fun name s => List.contains_eq_mem _ _) c.actionGroups
  rw [link, linkByReferences, hpolicies, hmaps, hmaps, hmarks, hgroups]

/-- Whether a subport on a VLAN of an interface names a defined policy whose shaper satisfies a condition. -/
def ShapedAt (c : Catalogue) (uses : Shaper → Prop) (i : Interface) (vlan : Nat) : Prop :=
  ∃ x ∈ i.subports, x.vlan = vlan ∧
    ∃ name policy, x.policy = some name ∧ c.policy? name = some policy ∧ uses policy.shaper

/-- The shapers of an interface are those of its policies, and that of a trunk without a policy. -/
theorem exists_shaper_iff_shapedAt (c : Catalogue) (uses : Shaper → Prop) (htrunk : ¬ uses Shaper.trunk)
    (i : Interface) (vlan : Nat) :
    (∃ x ∈ c.shapers i, x.1.vlan = vlan ∧ uses x.2) ↔ c.ShapedAt uses i vlan := by
  constructor
  · rintro ⟨⟨x, shaper⟩, hx, hvlan, huses⟩
    obtain ⟨hsub, hshaper⟩ := fst_of_mem_shapers hx
    refine ⟨x, hsub, hvlan, ?_⟩
    cases hp : x.policy with
    | none =>
      simp only [shaper?, hp, Option.some.injEq] at hshaper
      exact absurd (hshaper ▸ huses) htrunk
    | some name =>
      simp only [shaper?, hp] at hshaper
      obtain ⟨policy, hpolicy, rfl⟩ := Option.map_eq_some_iff.mp hshaper
      exact ⟨name, policy, rfl, hpolicy, huses⟩
  · rintro ⟨x, hsub, hvlan, name, policy, hp, hpolicy, huses⟩
    have hshaper : c.shaper? x = some policy.shaper := by simp only [shaper?, hp, hpolicy, Option.map_some]
    exact ⟨(x, policy.shaper), List.mem_filterMap.mpr ⟨x, hsub, by rw [hshaper]; rfl⟩, hvlan, huses⟩

end Catalogue

def Shaper.NamesActionGroup (s : Shaper) (name : String) : Prop :=
  ∃ c ∈ s.classes, ∃ r ∈ c.rules, r.actionGroup = some name

namespace Snapshot
variable {s : Snapshot}

/-- Whether users are the places of a snapshot that satisfy a condition, each once. -/
def PlacedAt (s : Snapshot) (users : List Binding) (place : Interface → Nat → Prop) : Prop :=
  users.Nodup ∧ ∀ b, b ∈ users ↔ ∃ p ∈ s.ports, p.name = b.ifname ∧ place p.interface b.vlan

/-- Whether the users of every policy are the ports that name it, each once and in the order of the ports. -/
def PolicyUsers (s : Snapshot) : Prop :=
  ∀ name q, s.catalogue.policies.get? name = some q →
    q.users.Nodup ∧ q.users = (s.ports.filter fun p => p.interface.NamesPolicy name).map Port.name

/-- Whether the users of every object are exactly what refers to it. -/
structure References (s : Snapshot) : Prop where
  policies : s.PolicyUsers
  ingressMaps : ∀ name o, s.catalogue.ingressMaps.get? name = some o →
    s.PlacedAt o.users fun i vlan => ⟨name, vlan⟩ ∈ i.ingressMaps
  egressMaps : ∀ name o, s.catalogue.egressMaps.get? name = some o →
    s.PlacedAt o.users fun i vlan => ⟨name, vlan⟩ ∈ i.egressMaps
  markMaps : ∀ name o, s.catalogue.markMaps.get? name = some o →
    s.PlacedAt o.users (s.catalogue.ShapedAt fun shaper => shaper.markMap = some name)
  actionGroups : ∀ name o, s.catalogue.actionGroups.get? name = some o →
    s.PlacedAt o.users (s.catalogue.ShapedAt fun shaper => shaper.NamesActionGroup name)

theorem nodup_names_filter (s : Snapshot) (q : Port → Bool) : ((s.ports.filter q).map Port.name).Nodup :=
  s.distinct.sublist (List.filter_sublist.map _)

theorem policyUsers_ofParts {c : Catalogue} (h : c.Fresh) (r : Roster) : (ofParts c r).PolicyUsers := by
  intro name q hq
  have hports : ((ofParts c r).ports.filter fun p => p.interface.NamesPolicy name).map Port.name =
      (r.interfaces.filter fun i => i.policies.contains name).map (·.name) := by
    rw [ofParts, List.filter_map, List.map_map]
    refine congrArg (List.map _) (List.filter_congr fun i _ => ?_)
    rw [Function.comp_apply, Bool.eq_iff_iff, decide_eq_true_iff, List.contains_iff_mem, Interface.mem_policies]
  have hnodup := (ofParts c r).nodup_names_filter fun p => p.interface.NamesPolicy name
  rw [ofParts, Catalogue.link, Table.get?_mapEntries] at hq
  obtain ⟨o, ho, rfl⟩ := Option.map_eq_some_iff.mp hq
  rw [hports] at hnodup ⊢
  have hempty := h.policies name o ho
  rw [Shared.users_addUsers_of_nodup (by rwa [hempty]), hempty]
  exact ⟨hnodup, rfl⟩

theorem Read.policyUsers (h : s.Read) : s.PolicyUsers := by
  cases h with
  | empty => exact policyUsers_ofParts Catalogue.fresh_empty Roster.empty
  | tree h =>
    obtain ⟨c, hc, h⟩ := Outcome.bind_eq_ok.mp h
    obtain ⟨r, _, h⟩ := Outcome.bind_eq_ok.mp h
    cases h
    exact policyUsers_ofParts (Catalogue.fresh_of_ofTree hc) r

theorem Linked.placedAt (h : s.Linked) {kind : ObjectKind} {name : String} {o : ObjectEntry}
    (ho : s.catalogue.object? kind name = some o) {place : Interface → Nat → Prop}
    (hplace : ∀ i vlan, s.catalogue.RefersAt i vlan kind name ↔ place i vlan) : s.PlacedAt o.users place := by
  obtain ⟨hnodup, husers⟩ := h.users kind name o ho
  simp only [hplace] at husers
  exact ⟨hnodup, husers⟩

theorem Linked.references (h : s.Linked) (hpolicies : s.PolicyUsers) : s.References where
  policies := hpolicies
  ingressMaps name o ho := by
    have ho : s.catalogue.object? .ingressMap name = some o.entry := congrArg (Option.map Shared.entry) ho
    exact h.placedAt ho fun _ _ => Iff.rfl
  egressMaps name o ho := by
    have ho : s.catalogue.object? .egressMap name = some o.entry := congrArg (Option.map Shared.entry) ho
    exact h.placedAt ho fun _ _ => Iff.rfl
  markMaps name o ho := by
    have ho : s.catalogue.object? .markMap name = some o.entry := congrArg (Option.map Shared.entry) ho
    have htrunk : Shaper.trunk.markMap ≠ some name := nofun
    exact h.placedAt ho (s.catalogue.exists_shaper_iff_shapedAt (fun shaper => shaper.markMap = some name) htrunk)
  actionGroups name o ho := by
    have ho : s.catalogue.object? .actionGroup name = some o.entry := congrArg (Option.map Shared.entry) ho
    have htrunk : ¬ Shaper.trunk.NamesActionGroup name := nofun
    refine h.placedAt ho fun i vlan => ?_
    simp only [Catalogue.RefersAt, Shaper.mem_actionGroups]
    exact s.catalogue.exists_shaper_iff_shapedAt (fun shaper => shaper.NamesActionGroup name) htrunk i vlan

section Retain

/-- Keeping some interfaces keeps on each policy the users that are kept. -/
theorem PolicyUsers.retain (h : s.PolicyUsers) (names : List String) : (s.retain names).PolicyUsers := by
  intro name q hq
  rw [Snapshot.retain, Table.get?_mapEntries] at hq
  obtain ⟨o, ho, rfl⟩ := Option.map_eq_some_iff.mp hq
  obtain ⟨hnodup, husers⟩ := h name o ho
  rw [Shared.users_foldl_dropUser]
  refine ⟨hnodup.filter _, ?_⟩
  rw [husers, List.filter_map, List.filter_filter]
  change _ = ((s.ports.filter _).filter _).map _
  rw [List.filter_filter]
  refine congrArg (List.map _) (List.filter_congr fun p hp => ?_)
  -- a port is gone exactly if it is not listed
  have hname : p.name ∈ s.names := List.mem_map_of_mem hp
  simp [hname, Bool.and_comm]

theorem ports_foldl_retain (kept : List (List String)) (s : Snapshot) :
    (kept.foldl Snapshot.retain s).ports = s.ports.filter fun p => ∀ names ∈ kept, p.name ∈ names := by
  induction kept generalizing s with
  | nil => simp
  | cons names kept ih =>
    rw [List.foldl_cons, ih]
    change (s.ports.filter _).filter _ = _
    rw [List.filter_filter]
    refine List.filter_congr fun p _ => ?_
    simp [Bool.and_comm]

theorem PolicyUsers.foldl_retain (h : s.PolicyUsers) (kept : List (List String)) :
    (kept.foldl Snapshot.retain s).PolicyUsers := by
  induction kept generalizing s with
  | nil => exact h
  | cons names kept ih => exact ih (h.retain names)

theorem commands_foldl_retain (kept : List (List String)) (s : Snapshot) (platform : LimitCapability) (p : Port) :
    (kept.foldl Snapshot.retain s).commands platform p = s.commands platform p := by
  induction kept generalizing s with
  | nil => rfl
  | cons names kept ih =>
    rw [List.foldl_cons, ih, commands, attachment, directives_retain]
    rfl

end Retain

/-- In a snapshot that is read, users are exactly what refers to an object. After any interfaces are
dropped the same holds of policies, and the ports that are left keep their order and their commands. -/
theorem references_of_read (h : s.Read) : s.References ∧ ∀ kept : List (List String),
    (kept.foldl Snapshot.retain s).ports = s.ports.filter (fun p => ∀ names ∈ kept, p.name ∈ names) ∧
    (kept.foldl Snapshot.retain s).PolicyUsers ∧
    ∀ platform, ∀ p ∈ (kept.foldl Snapshot.retain s).ports,
      (kept.foldl Snapshot.retain s).commands platform p = s.commands platform p := by
  refine ⟨h.linked.references h.policyUsers, fun kept => ⟨ports_foldl_retain kept s, ?_, ?_⟩⟩
  · exact h.policyUsers.foldl_retain kept
  · intro platform p _
    exact commands_foldl_retain kept s platform p

theorem references_of_read_sharing :
    let port := Scenario.port "dp0s2" "p1" [(Schema.ingressMap, "in")]
    let tagged := Scenario.portWithVlans "dp0s1" none [(10, "p1"), (20, "p1")]
    let s := orEmpty { Scenario.empty with
      policies := [Scenario.simplePolicy "p1" "1Gbit" "prof" "1Gbit"]
      ingressMaps := [Scenario.ingressMap "in" "voice" 1]
      ports := [port, tagged] }.tree none
    (∃ q, s.catalogue.policies.get? "p1" = some q ∧ q.users = ["dp0s2", "dp0s1"]) ∧
    (∃ o, s.catalogue.ingressMaps.get? "in" = some o ∧ ⟨"dp0s2", 0⟩ ∈ o.users) ∧
    ∃ q, (s.retain ["dp0s1"]).catalogue.policies.get? "p1" = some q ∧ q.users = ["dp0s1"] := by
  intro port tagged s
  obtain ⟨h, hkept⟩ := references_of_read (read_orEmpty _ none : s.Read)
  obtain ⟨hports, hretain, -⟩ := hkept [["dp0s1"]]
  have hfacts : (s.catalogue.policies.get? "p1").isSome = true ∧ (s.catalogue.ingressMaps.get? "in").isSome = true ∧
      ((s.retain ["dp0s1"]).catalogue.policies.get? "p1").isSome = true ∧
      (s.ports.filter fun p => p.interface.NamesPolicy "p1").map Port.name = ["dp0s2", "dp0s1"] ∧
      (((s.ports.filter fun p => ∀ names ∈ [["dp0s1"]], p.name ∈ names).filter fun p =>
        p.interface.NamesPolicy "p1").map Port.name = ["dp0s1"]) ∧
      ∃ p ∈ s.ports, p.name = "dp0s2" ∧ ⟨"in", 0⟩ ∈ p.interface.ingressMaps := by decide +kernel
  obtain ⟨hpolicy, hmap, hleft, husers, hkeeps, hplace⟩ := hfacts
  obtain ⟨q, hq⟩ := Option.isSome_iff_exists.mp hpolicy
  obtain ⟨o, ho⟩ := Option.isSome_iff_exists.mp hmap
  obtain ⟨r, hr⟩ := Option.isSome_iff_exists.mp hleft
  refine ⟨⟨q, hq, ?_⟩, ⟨o, ho, ((h.ingressMaps "in" o ho).2 _).mpr hplace⟩, r, hr, ?_⟩
  · rw [(h.policies "p1" q hq).2, husers]
  · rw [(hretain "p1" r hr).2, hports, hkeeps]

end Snapshot
end QosControl
