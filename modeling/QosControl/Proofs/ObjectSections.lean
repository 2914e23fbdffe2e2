import QosControl.Proofs.BackReferences

/-! # The object sections of a plan

The removals of a plan are the deletions of a list of old objects, and its definitions
are the creations of a list of new ones. In both lists every object occurs once, and
which objects they hold is told by the two tables alone.
-/
namespace QosControl

/-- Whether a name is defined in both tables, and not alike. -/
def Redefined {α β : Type} (old new : Table String (Shared α β)) (name : String) : Prop :=
  ∃ o s, old.get? name = some o ∧ new.get? name = some s ∧ o.object ≠ s.object

section Kind
variable {α : Type} [DecidableEq α] [Provisioned α]

omit [Provisioned α] in
theorem redefined_eq_true_iff {old : Option (Shared α Binding)} {s : Shared α Binding} :
    redefined old s = true ↔ ∃ o, old = some o ∧ o.object ≠ s.object := by
  cases old <;> simp [redefined]

omit [DecidableEq α] in
theorem existed_eq_false_iff {old : Option (Shared α Binding)} :
    existed old = false ↔ ∀ o, old = some o → o.deferred = true := by
  cases old <;> simp [existed]

/-- Whether an object goes although its name stays: it is to be held back, or has another
definition and no users. -/
def outdated (o s : Shared α Binding) : Bool :=
  !o.deferred && (s.deferred || (redefined (some o) s && s.users.isEmpty))

theorem outdated_eq_true_iff {o s : Shared α Binding} : outdated o s = true ↔
    o.deferred = false ∧ (s.deferred = true ∨ (o.object ≠ s.object ∧ s.users = [])) := by
  simp [outdated, redefined]

/-- The old objects that a plan removes. -/
def outgoing (old new : Objects α) : List (String × Shared α Binding) :=
  (old.entries.filter fun e => !(new.contains e.1 || e.2.deferred)) ++
    new.entries.filterMap fun e => ((old.get? e.1).filter (outdated · e.2)).map (e.1, ·)

theorem objectRemovals_eq (old new : Objects α) :
    objectRemovals old new = (outgoing old new).flatMap fun e => e.2.deletion := by
  rw [objectRemovals, outgoing, List.flatMap_append]
  congr 1
  · induction old.entries with
    | nil => rfl
    | cons e es ih =>
      rw [List.flatMap_cons, ih, List.filter_cons, removeAbsent]
      cases new.contains e.1 || e.2.deferred <;> simp
  · induction new.entries with
    | nil => rfl
    | cons e es ih =>
      rw [List.flatMap_cons, ih, List.filterMap_cons, removeOutdated]
      cases old.get? e.1 with
      | none => rfl
      | some o =>
        change (if outdated o e.2 = true then o.deletion else []) ++ _ = _
        rw [Option.filter_some]
        cases outdated o e.2 <;> rfl

theorem mem_outgoing {old new : Objects α} {name : String} {o : Shared α Binding} :
    (name, o) ∈ outgoing old new ↔ old.get? name = some o ∧ o.deferred = false ∧
      ∀ s, new.get? name = some s → s.deferred = true ∨ (o.object ≠ s.object ∧ s.users = []) := by
  rw [outgoing, List.mem_append, List.mem_filter, List.mem_filterMap, Table.mem_entries_iff]
  cases hn : new.get? name with
  | none =>
    have hc : new.contains name = false := Table.contains_eq_false_iff.mpr hn
    constructor
    · rintro (⟨ho, h⟩ | ⟨e, he, h⟩)
      · exact ⟨ho, by simpa [hc] using h, nofun⟩
      · obtain ⟨p, _, hp⟩ := Option.map_eq_some_iff.mp h
        cases hp
        rw [Table.mem_entries_iff, hn] at he
        cases he
    · rintro ⟨ho, hd, _⟩
      exact .inl ⟨ho, by simp [hc, hd]⟩
  | some s =>
    have hc : new.contains name = true := Table.contains_iff.mpr ⟨s, hn⟩
    constructor
    · rintro (⟨_, h⟩ | ⟨e, he, h⟩)
      · simp [hc] at h
      · obtain ⟨p, hf, hp⟩ := Option.map_eq_some_iff.mp h
        cases hp
        rw [Table.mem_entries_iff, hn] at he
        cases he
        obtain ⟨ho, hf⟩ := Option.filter_eq_some_iff.mp hf
        obtain ⟨hd, hs⟩ := outdated_eq_true_iff.mp hf
        exact ⟨ho, hd, fun t ht => by cases ht; exact hs⟩
    · rintro ⟨ho, hd, h⟩
      refine .inr ⟨(name, s), Table.mem_entries_of_get? hn, ?_⟩
      exact Option.map_eq_some_iff.mpr ⟨o, Option.filter_eq_some_iff.mpr
        ⟨ho, outdated_eq_true_iff.mpr ⟨hd, h s rfl⟩⟩, rfl⟩

theorem nodup_outgoing (old new : Objects α) : ((outgoing old new).map (·.1)).Nodup := by
  have hkeys : List.Sublist ((new.entries.filterMap fun e =>
      ((old.get? e.1).filter (outdated · e.2)).map (e.1, ·)).map (·.1)) new.keys := by
    rw [Table.keys]
    induction new.entries with
    | nil => exact .slnil
    | cons e es ih =>
      rw [List.filterMap_cons]
      split
      next => exact .cons _ ih
      next d hd =>
        obtain ⟨o, _, rfl⟩ := Option.map_eq_some_iff.mp hd
        exact .cons_cons _ ih
  rw [outgoing, List.map_append, List.nodup_append]
  refine ⟨old.nodup_keys.sublist (List.filter_sublist.map _), new.nodup_keys.sublist hkeys, ?_⟩
  rintro a ha b hb rfl
  obtain ⟨e, he, rfl⟩ := List.mem_map.mp ha
  obtain ⟨s, hs, hse⟩ := List.mem_map.mp (hkeys.subset hb)
  have hc : new.contains e.1 = true := Table.contains_iff.mpr ⟨s.2, hse ▸ Table.get?_of_mem_entries hs⟩
  simp [hc] at he

/-- The new objects that a plan defines: those that were not there, or not so. -/
def incoming (old new : Objects α) : List (String × Shared α Binding) :=
  new.entries.filter fun e => !e.2.deferred && (!existed (old.get? e.1) || redefined (old.get? e.1) e.2)

theorem objectDefinitions_eq (old new : Objects α) :
    objectDefinitions old new = (incoming old new).flatMap fun e => e.2.creation := by
  rw [objectDefinitions, incoming]
  induction new.entries with
  | nil => rfl
  | cons e es ih =>
    rw [List.flatMap_cons, ih, List.filter_cons, defineObject]
    cases !e.2.deferred && (!existed (old.get? e.1) || redefined (old.get? e.1) e.2) <;> rfl

theorem mem_incoming {old new : Objects α} {name : String} {s : Shared α Binding} :
    (name, s) ∈ incoming old new ↔ new.get? name = some s ∧ s.deferred = false ∧
      ∀ o, old.get? name = some o → o.deferred = true ∨ o.object ≠ s.object := by
  rw [incoming, List.mem_filter, Table.mem_entries_iff]
  refine and_congr_right fun _ => ?_
  rw [Bool.and_eq_true, Bool.or_eq_true, Bool.not_eq_true', Bool.not_eq_true', existed_eq_false_iff,
    redefined_eq_true_iff]
  refine and_congr_right fun _ => ?_
  cases old.get? name <;> simp

theorem nodup_incoming (old new : Objects α) : ((incoming old new).map (·.1)).Nodup :=
  new.nodup_keys.sublist (List.filter_sublist.map _)

theorem outgoing_self (t : Objects α) : outgoing t t = [] := by
  refine List.eq_nil_iff_forall_not_mem.mpr fun ⟨name, o⟩ h => ?_
  obtain ⟨ho, hd, h⟩ := mem_outgoing.mp h
  rcases h o ho with h | h
  · rw [hd] at h
    cases h
  · exact h.1 rfl

theorem incoming_self (t : Objects α) : incoming t t = [] := by
  refine List.eq_nil_iff_forall_not_mem.mpr fun ⟨name, o⟩ h => ?_
  obtain ⟨ho, hd, h⟩ := mem_incoming.mp h
  rcases h o ho with h | h
  · rw [hd] at h
    cases h
  · exact h rfl

end Kind

/-- How ports bind the objects of a kind, if they do. -/
def ObjectKind.portMap? : ObjectKind → Option PortMapKind
  | .ingressMap => some .ingress
  | .egressMap => some .egress
  | .markMap | .actionGroup => none

def PortMapKind.objectKind : PortMapKind → ObjectKind
  | .ingress => .ingressMap
  | .egress => .egressMap

@[simp] theorem PortMapKind.portMap?_objectKind (m : PortMapKind) : m.objectKind.portMap? = some m := by
  cases m <;> rfl

theorem ObjectKind.objectKind_of_portMap? {kind : ObjectKind} {m : PortMapKind}
    (h : kind.portMap? = some m) : m.objectKind = kind := by
  cases kind <;> cases h <;> rfl

/-- An object with its kind and its name. -/
structure NamedObject where
  kind : ObjectKind
  name : String
  entry : ObjectEntry

namespace NamedObject

def key (x : NamedObject) : ObjectKind × String := (x.kind, x.name)

/-- Unbinds an object that ports bind, once for each of its users. -/
def unbinding (x : NamedObject) : List Instruction :=
  match x.kind.portMap? with
  | some m => x.entry.users.map fun b => .port b.ifname (.unbind m x.name b.vlan)
  | none => []

def deletion (x : NamedObject) : List Instruction := x.unbinding ++ [.remove x.kind x.name]

def creation (x : NamedObject) : List Instruction := x.entry.lines.map (.define x.kind x.name)

theorem mem_deletion {x : NamedObject} {i : Instruction} : i ∈ x.deletion ↔ i = .remove x.kind x.name ∨
    ∃ m, x.kind.portMap? = some m ∧ ∃ b ∈ x.entry.users, i = .port b.ifname (.unbind m x.name b.vlan) := by
  rw [deletion, List.mem_append, List.mem_singleton, or_comm, unbinding]
  cases x.kind.portMap? with
  | none => simp
  | some m => simp [eq_comm]

theorem mem_creation {x : NamedObject} {i : Instruction} :
    i ∈ x.creation ↔ ∃ body ∈ x.entry.lines, i = .define x.kind x.name body := by
  simp [creation, eq_comm]

section Tag
variable {α : Type} [DecidableEq α] [Provisioned α]

def ofEntry (e : String × Shared α Binding) : NamedObject := ⟨Provisioned.kind α, e.1, e.2.entry⟩

omit [DecidableEq α] in
theorem deletion_ofEntry (hmap : Provisioned.portMap α = (Provisioned.kind α).portMap?)
    {e : String × Shared α Binding} (he : e.2.name = e.1) : (ofEntry e).deletion = e.2.deletion := by
  have hunbinding : (ofEntry e).unbinding = e.2.unbinding := by
    rw [unbinding, Shared.unbinding, ofEntry, ← hmap, he]
    rfl
  rw [deletion, Shared.deletion, hunbinding, ofEntry, he]

omit [DecidableEq α] in
theorem creation_ofEntry {e : String × Shared α Binding} (he : e.2.name = e.1) :
    (ofEntry e).creation = e.2.creation := by
  simp only [creation, Shared.creation, ofEntry, he, Shared.entry]

theorem removals_ofEntry (hmap : Provisioned.portMap α = (Provisioned.kind α).portMap?) {old new : Objects α}
    (hold : ∀ name s, old.get? name = some s → s.name = name) :
    objectRemovals old new = ((outgoing old new).map ofEntry).flatMap deletion := by
  rw [objectRemovals_eq, List.flatMap_map]
  exact List.flatMap_congr fun e he => (deletion_ofEntry hmap (hold e.1 e.2 (mem_outgoing.mp he).1)).symm

theorem definitions_ofEntry {old new : Objects α} (hnew : ∀ name s, new.get? name = some s → s.name = name) :
    objectDefinitions old new = ((incoming old new).map ofEntry).flatMap creation := by
  rw [objectDefinitions_eq, List.flatMap_map]
  exact List.flatMap_congr fun e he => (creation_ofEntry (hnew e.1 e.2 (mem_incoming.mp he).1)).symm

omit [DecidableEq α] in
theorem mem_map_ofEntry {es : List (String × Shared α Binding)} {x : NamedObject} :
    x ∈ es.map ofEntry ↔ x.kind = Provisioned.kind α ∧ ∃ s, (x.name, s) ∈ es ∧ s.entry = x.entry := by
  rw [List.mem_map]
  constructor
  · rintro ⟨⟨name, s⟩, he, rfl⟩
    exact ⟨rfl, s, he, rfl⟩
  · obtain ⟨kind, name, entry⟩ := x
    rintro ⟨rfl, s, he, rfl⟩
    exact ⟨(name, s), he, rfl⟩

theorem outgoing_iff {old new : Objects α} {name : String} {o : ObjectEntry} :
    (∃ s, (name, s) ∈ outgoing old new ∧ s.entry = o) ↔
      (old.get? name).map Shared.entry = some o ∧ o.deferred = false ∧
        ∀ t, (new.get? name).map Shared.entry = some t →
          t.deferred = true ∨ (Redefined old new name ∧ t.users = []) := by
  simp only [mem_outgoing, Option.map_eq_some_iff]
  constructor
  · rintro ⟨s, ⟨hs, hd, h⟩, rfl⟩
    refine ⟨⟨s, hs, rfl⟩, hd, ?_⟩
    rintro _ ⟨t, ht, rfl⟩
    exact (h t ht).imp id fun h => ⟨⟨s, t, hs, ht, h.1⟩, h.2⟩
  · rintro ⟨⟨s, hs, rfl⟩, hd, h⟩
    refine ⟨s, ⟨hs, hd, fun t ht => ?_⟩, rfl⟩
    refine (h t.entry ⟨t, ht, rfl⟩).imp id ?_
    rintro ⟨⟨s', t', hs', ht', hne⟩, hu⟩
    rw [hs] at hs'
    rw [ht] at ht'
    cases hs'
    cases ht'
    exact ⟨hne, hu⟩

theorem incoming_iff {old new : Objects α} {name : String} {t : ObjectEntry} :
    (∃ s, (name, s) ∈ incoming old new ∧ s.entry = t) ↔
      (new.get? name).map Shared.entry = some t ∧ t.deferred = false ∧
        ∀ o, (old.get? name).map Shared.entry = some o → o.deferred = true ∨ Redefined old new name := by
  simp only [mem_incoming, Option.map_eq_some_iff]
  constructor
  · rintro ⟨s, ⟨hs, hd, h⟩, rfl⟩
    refine ⟨⟨s, hs, rfl⟩, hd, ?_⟩
    rintro _ ⟨o, ho, rfl⟩
    exact (h o ho).imp id fun hne => ⟨o, s, ho, hs, hne⟩
  · rintro ⟨⟨s, hs, rfl⟩, hd, h⟩
    refine ⟨s, ⟨hs, hd, fun o ho => ?_⟩, rfl⟩
    refine (h o.entry ⟨o, ho, rfl⟩).imp id ?_
    rintro ⟨o', s', ho', hs', hne⟩
    rw [ho] at ho'
    rw [hs] at hs'
    cases ho'
    cases hs'
    exact hne

omit [DecidableEq α] in
theorem nodup_keys_map_ofEntry {es : List (String × Shared α Binding)} (h : (es.map (·.1)).Nodup) :
    ((es.map ofEntry).map key).Nodup := by
  have hinj : Function.Injective fun name : String => (Provisioned.kind α, name) :=
    fun _ _ h => congrArg Prod.snd h
  have hkeys := h.map hinj
  rw [List.map_map] at hkeys ⊢
  exact hkeys

omit [DecidableEq α] in
theorem kind_of_mem_keys {es : List (String × Shared α Binding)} {k : ObjectKind × String}
    (h : k ∈ (es.map ofEntry).map key) : k.1 = Provisioned.kind α := by
  obtain ⟨x, hx, rfl⟩ := List.mem_map.mp h
  exact (mem_map_ofEntry.mp hx).1

end Tag
end NamedObject

namespace Catalogue
open NamedObject
variable (a b : Catalogue)

/-- Whether both catalogues define an object of a kind and a name, and not alike. -/
def Redefines (kind : ObjectKind) (name : String) : Prop :=
  match kind with
  | .markMap => Redefined a.markMaps b.markMaps name
  | .ingressMap => Redefined a.ingressMaps b.ingressMaps name
  | .egressMap => Redefined a.egressMaps b.egressMaps name
  | .actionGroup => Redefined a.actionGroups b.actionGroups name

/-- The objects of every kind that are removed, in order. -/
def outgoing : List NamedObject :=
  (QosControl.outgoing a.markMaps b.markMaps).map ofEntry ++
  (QosControl.outgoing a.actionGroups b.actionGroups).map ofEntry ++
  (QosControl.outgoing a.ingressMaps b.ingressMaps).map ofEntry ++
  (QosControl.outgoing a.egressMaps b.egressMaps).map ofEntry

/-- The objects of every kind that are defined, in order. -/
def incoming : List NamedObject :=
  (QosControl.incoming a.markMaps b.markMaps).map ofEntry ++
  (QosControl.incoming a.actionGroups b.actionGroups).map ofEntry ++
  (QosControl.incoming a.ingressMaps b.ingressMaps).map ofEntry ++
  (QosControl.incoming a.egressMaps b.egressMaps).map ofEntry

variable {a b : Catalogue}

theorem mem_outgoing {x : NamedObject} : x ∈ a.outgoing b ↔
    a.object? x.kind x.name = some x.entry ∧ x.entry.deferred = false ∧
      ∀ t, b.object? x.kind x.name = some t →
        t.deferred = true ∨ (a.Redefines b x.kind x.name ∧ t.users = []) := by
  obtain ⟨kind, name, o⟩ := x
  simp only [outgoing, List.mem_append, mem_map_ofEntry, outgoing_iff]
  cases kind <;> simp [Provisioned.kind, object?, Redefines]

theorem mem_incoming {x : NamedObject} : x ∈ a.incoming b ↔
    b.object? x.kind x.name = some x.entry ∧ x.entry.deferred = false ∧
      ∀ o, a.object? x.kind x.name = some o → o.deferred = true ∨ a.Redefines b x.kind x.name := by
  obtain ⟨kind, name, o⟩ := x
  simp only [incoming, List.mem_append, mem_map_ofEntry, incoming_iff]
  cases kind <;> simp [Provisioned.kind, object?, Redefines]

/-- Lists of objects of the four kinds have no key twice if none of them has a name twice. -/
theorem nodup_keys {ms : List (String × Shared MarkMap Binding)} {as : List (String × Shared ActionGroup Binding)}
    {is : List (String × Shared IngressMap Binding)} {es : List (String × Shared EgressMap Binding)}
    (hm : (ms.map (·.1)).Nodup) (ha : (as.map (·.1)).Nodup) (hi : (is.map (·.1)).Nodup)
    (he : (es.map (·.1)).Nodup) :
    ((ms.map ofEntry ++ as.map ofEntry ++ is.map ofEntry ++ es.map ofEntry).map key).Nodup := by
  simp only [List.map_append]
  refine List.nodup_append.mpr ⟨List.nodup_append.mpr ⟨List.nodup_append.mpr
    ⟨nodup_keys_map_ofEntry hm, nodup_keys_map_ofEntry ha, ?_⟩, nodup_keys_map_ofEntry hi, ?_⟩,
    nodup_keys_map_ofEntry he, ?_⟩
  · rintro x hx y hy rfl
    cases (kind_of_mem_keys hx).symm.trans (kind_of_mem_keys hy)
  · rintro x hx y hy rfl
    rcases List.mem_append.mp hx with hx | hx <;> cases (kind_of_mem_keys hx).symm.trans (kind_of_mem_keys hy)
  · rintro x hx y hy rfl
    rcases List.mem_append.mp hx with hx | hx
    · rcases List.mem_append.mp hx with hx | hx <;>
        cases (kind_of_mem_keys hx).symm.trans (kind_of_mem_keys hy)
    · cases (kind_of_mem_keys hx).symm.trans (kind_of_mem_keys hy)

theorem nodup_outgoing (a b : Catalogue) : ((a.outgoing b).map key).Nodup :=
  nodup_keys (QosControl.nodup_outgoing _ _) (QosControl.nodup_outgoing _ _)
    (QosControl.nodup_outgoing _ _) (QosControl.nodup_outgoing _ _)

theorem nodup_incoming (a b : Catalogue) : ((a.incoming b).map key).Nodup :=
  nodup_keys (QosControl.nodup_incoming _ _) (QosControl.nodup_incoming _ _)
    (QosControl.nodup_incoming _ _) (QosControl.nodup_incoming _ _)

end Catalogue

theorem Platform.mem_clearing {old new : Platform} {i : Instruction} (h : i ∈ clearing old new) :
    ∃ switch, i = .clearSwitch switch := by
  obtain ⟨⟨switch, v⟩, _, h⟩ := List.mem_filterMap.mp h
  obtain ⟨_, h⟩ := Option.ite_none_right_eq_some.mp h
  exact ⟨switch, (Option.some.inj h).symm⟩

theorem Platform.mem_setting {old new : Platform} {i : Instruction} (h : i ∈ setting old new) :
    ∃ switch n, i = .setSwitch switch n := by
  obtain ⟨⟨switch, v⟩, _, h⟩ := List.mem_filterMap.mp h
  obtain ⟨_, h⟩ := Option.ite_none_left_eq_some.mp h
  obtain ⟨n, _, rfl⟩ := Option.map_eq_some_iff.mp h
  exact ⟨switch, n, rfl⟩

namespace Plan
variable {old new : Snapshot}

theorem removals_between (h : old.catalogue.Named) (platform : LimitCapability) :
    (between old new platform).removals =
      Platform.clearing old.catalogue.platform new.catalogue.platform ++
        (old.catalogue.outgoing new.catalogue).flatMap NamedObject.deletion := by
  simp only [between, Catalogue.outgoing, List.flatMap_append, List.append_assoc]
  rw [NamedObject.removals_ofEntry rfl h.markMaps, NamedObject.removals_ofEntry rfl h.actionGroups,
    NamedObject.removals_ofEntry rfl h.ingressMaps, NamedObject.removals_ofEntry rfl h.egressMaps]

theorem definitions_between (h : new.catalogue.Named) (platform : LimitCapability) :
    (between old new platform).definitions =
      Platform.setting old.catalogue.platform new.catalogue.platform ++
        (old.catalogue.incoming new.catalogue).flatMap NamedObject.creation := by
  simp only [between, Catalogue.incoming, List.flatMap_append, List.append_assoc]
  rw [NamedObject.definitions_ofEntry h.markMaps, NamedObject.definitions_ofEntry h.actionGroups,
    NamedObject.definitions_ofEntry h.ingressMaps, NamedObject.definitions_ofEntry h.egressMaps]

end Plan
end QosControl
