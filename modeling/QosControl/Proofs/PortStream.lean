import QosControl.Proofs.Rebuild

/-! # What a stream says to one interface

The lines of a stream for one interface are the unbindings of maps that go, and then what
takes the interface from the one snapshot to the other: nothing, a disable, its new lines,
or both. This is settled by the two ports of its name alone, since no section of a stream
names a port twice.
-/
namespace QosControl

/-- The lines of a stream for one interface. -/
def linesFor (ifname : String) (is : List Instruction) : List PortDirective :=
  is.filterMap fun
    | .port name d => if name = ifname then some d else none
    | _ => none

section LinesFor
variable {ifname : String} {is : List Instruction} {d : PortDirective}

theorem linesFor_append (ifname : String) (is js : List Instruction) :
    linesFor ifname (is ++ js) = linesFor ifname is ++ linesFor ifname js :=
  List.filterMap_append

theorem mem_linesFor : d ∈ linesFor ifname is ↔ .port ifname d ∈ is := by
  rw [linesFor, List.mem_filterMap]
  constructor
  · rintro ⟨i, hi, h⟩
    cases i with
    | port name e =>
      obtain ⟨rfl, hd⟩ := Option.ite_none_right_eq_some.mp h
      rwa [Option.some.inj hd] at hi
    | _ => cases h
  · intro h
    exact ⟨.port ifname d, h, if_pos rfl⟩

theorem linesFor_eq_nil_iff : linesFor ifname is = [] ↔ ∀ d, .port ifname d ∉ is := by
  rw [List.eq_nil_iff_forall_not_mem]
  exact forall_congr' fun d => not_congr mem_linesFor

theorem count_linesFor (ifname : String) (is : List Instruction) (d : PortDirective) :
    (linesFor ifname is).count d = is.count (.port ifname d) := by
  induction is with
  | nil => rfl
  | cons i is ih =>
    have hone : (linesFor ifname [i]).count d = [i].count (.port ifname d) := by
      cases i with
      | port name e => by_cases h : name = ifname <;> simp [linesFor, List.count_cons, h]
      | _ => rfl
    rw [← List.singleton_append, linesFor_append, List.count_append, List.count_append, ih, hone]

theorem linesFor_port (name : String) (ds : List PortDirective) :
    linesFor ifname (ds.map (.port name)) = if name = ifname then ds else [] := by
  rw [linesFor, List.filterMap_map]
  by_cases h : name = ifname <;> simp [h]

/-- The lines that each port of a list gets, one port after the other. -/
def blocks (f : Port → List PortDirective) (ps : List Port) : List Instruction :=
  ps.flatMap fun p => (f p).map (.port p.name)

theorem linesFor_blocks_of_not_mem (f : Port → List PortDirective) {ps : List Port}
    (h : ifname ∉ ps.map Port.name) : linesFor ifname (blocks f ps) = [] := by
  refine linesFor_eq_nil_iff.mpr fun d hd => ?_
  obtain ⟨p, hp, hd⟩ := List.mem_flatMap.mp hd
  obtain ⟨_, _, hd⟩ := List.mem_map.mp hd
  cases hd
  exact h (List.mem_map_of_mem hp)

theorem linesFor_blocks_of_mem (f : Port → List PortDirective) {ps : List Port}
    (hps : (ps.map Port.name).Nodup) {p : Port} (hp : p ∈ ps) : linesFor p.name (blocks f ps) = f p := by
  induction ps with
  | nil => cases hp
  | cons q qs ih =>
    obtain ⟨hq, hqs⟩ := List.nodup_cons.mp hps
    have hsplit : blocks f (q :: qs) = (f q).map (.port q.name) ++ blocks f qs := List.flatMap_cons
    rw [hsplit, linesFor_append, linesFor_port]
    rcases List.mem_cons.mp hp with rfl | hp
    · rw [if_pos rfl, linesFor_blocks_of_not_mem f hq, List.append_nil]
    · have hne : q.name ≠ p.name := fun h => hq (h ▸ List.mem_map_of_mem hp)
      rw [if_neg hne, ih hqs hp, List.nil_append]

end LinesFor

/-- An element that is not in the first of two lists stands in the second. -/
theorem exists_append_of_not_mem {α : Type} {xs ys before after : List α} {a : α} (ha : a ∉ xs)
    (h : xs ++ ys = before ++ a :: after) : ∃ zs, before = xs ++ zs ∧ ys = zs ++ a :: after := by
  rcases List.append_eq_append_iff.mp h with ⟨zs, hbefore, hys⟩ | ⟨zs, hxs, hafter⟩
  · exact ⟨zs, hbefore, hys⟩
  · cases zs with
    | nil => exact ⟨[], by simpa using hxs.symm, hafter.symm⟩
    | cons z zs =>
      obtain ⟨rfl, _⟩ := List.cons.inj hafter
      exact absurd (by simp [hxs]) ha

theorem nodup_eraseDups {α : Type} [DecidableEq α] (as : List α) : as.eraseDups.Nodup := by
  cases as with
  | nil => exact List.nodup_nil
  | cons a as =>
    rw [List.eraseDups_cons]
    refine List.nodup_cons.mpr ⟨?_, nodup_eraseDups (as.filter fun b => !b == a)⟩
    simp [List.mem_eraseDups]
termination_by as.length
decreasing_by exact Nat.lt_succ_of_le (List.length_filter_le _ _)

namespace Snapshot
variable {old new : Snapshot} {ifname : String}

theorem names_filterMap_port? (s : Snapshot) (names : List String) :
    ((names.filterMap s.port?).map Port.name).Sublist names := by
  induction names with
  | nil => exact .slnil
  | cons name names ih =>
    rw [List.filterMap_cons]
    cases hp : s.port? name with
    | none => exact .cons _ ih
    | some p =>
      have hname : p.name = name := (port?_eq_some_iff.mp hp).2
      rw [List.map_cons, hname]
      exact .cons_cons _ ih

theorem nodup_addedPorts (old new : Snapshot) : ((addedPorts old new).map Port.name).Nodup :=
  new.distinct.sublist (List.filter_sublist.map _)

theorem nodup_rebuiltPorts (old new : Snapshot) : ((rebuiltPorts old new).map Port.name).Nodup := by
  have hnames : (affected old new).Nodup := nodup_eraseDups _
  exact (hnames.filter _).sublist (names_filterMap_port? new _)

theorem nodup_disabledPorts (old new : Snapshot) : ((disabledPorts old new).map Port.name).Nodup := by
  have hchanged : (((addedPorts old new).filterMap fun p => old.port? p.name).map Port.name).Sublist
      ((addedPorts old new).map Port.name) := by
    have h := names_filterMap_port? old ((addedPorts old new).map Port.name)
    rwa [List.filterMap_map] at h
  rw [disabledPorts, List.map_append, List.nodup_append]
  refine ⟨(nodup_addedPorts old new).sublist hchanged, old.distinct.sublist (List.filter_sublist.map _), ?_⟩
  rintro name hname _ hgone rfl
  obtain ⟨q, hq, rfl⟩ := List.mem_map.mp (hchanged.subset hname)
  obtain ⟨p, hp, hpq⟩ := List.mem_map.mp hgone
  have hhas : new.has q.name = true :=
    has_eq_true_iff.mpr ⟨q, port?_eq_some_iff.mpr ⟨(mem_addedPorts.mp hq).1, rfl⟩⟩
  simp [hpq, hhas] at hp

/-- A list of ports of a snapshot that leaves out the port of a name has no port of the name. -/
theorem not_mem_names {s : Snapshot} {ps : List Port} (hps : ∀ p ∈ ps, p ∈ s.ports)
    (h : ∀ p, s.port? ifname = some p → p ∉ ps) : ifname ∉ ps.map Port.name := by
  intro hmem
  obtain ⟨p, hp, rfl⟩ := List.mem_map.mp hmem
  exact h p (port?_eq_some_iff.mpr ⟨hps p hp, rfl⟩) hp

/-- The lines that take one interface from a snapshot to another. -/
def transition (old new : Snapshot) (platform : LimitCapability) (ifname : String) : List PortDirective :=
  match old.port? ifname, new.port? ifname with
  | none, none => []
  | some _, none => [.disable]
  | none, some q => directives new.catalogue platform q
  | some p, some q =>
    if p.interface = q.interface ∧ ifname ∉ affected old new then []
    else .disable :: directives new.catalogue platform q

/-- An interface is disabled first if at all, and enabled once at most. -/
theorem transition_eq (old new : Snapshot) (platform : LimitCapability) (ifname : String) : ∃ lines,
    .disable ∉ lines ∧ lines.count .enable ≤ 1 ∧
      (transition old new platform ifname = lines ∨ transition old new platform ifname = .disable :: lines) := by
  unfold transition
  cases old.port? ifname with
  | none =>
    cases new.port? ifname with
    | none => exact ⟨[], by simp⟩
    | some q => exact ⟨_, disable_not_mem_directives, count_enable_directives_le_one, .inl rfl⟩
  | some p =>
    cases new.port? ifname with
    | none => exact ⟨[], by simp⟩
    | some q =>
      by_cases h : p.interface = q.interface ∧ ifname ∉ affected old new
      · exact ⟨[], by simp [h]⟩
      · exact ⟨_, disable_not_mem_directives, count_enable_directives_le_one, .inr (if_neg h)⟩

end Snapshot

theorem Catalogue.refersAt_objectKind {c : Catalogue} {i : Interface} {m : PortMapKind} {name : String}
    {vlan : Nat} : c.RefersAt i vlan m.objectKind name ↔ ⟨name, vlan⟩ ∈ i.mapUses m := by
  cases m <;> rfl

namespace Plan
open Snapshot NamedObject
variable {old new : Snapshot} {ifname : String}

theorem portSection_between (platform : LimitCapability) : (between old new platform).portSection =
    blocks (fun _ => [.disable]) (disabledPorts old new) ++
    blocks (fun q => .disable :: directives new.catalogue platform q) (rebuiltPorts old new) ++
    blocks (directives new.catalogue platform) (addedPorts old new) := by
  have hdisabled : (between old new platform).disabled.map Interface.disable =
      blocks (fun _ => [.disable]) (disabledPorts old new) := by
    simp [between, blocks, Interface.disable, Port.name, ← List.map_eq_flatMap]
  have hrebuilt : (between old new platform).rebuiltLines =
      blocks (fun q => .disable :: directives new.catalogue platform q) (rebuiltPorts old new) := by
    simp [between, rebuiltLines, blocks, attachment, Interface.disable, Port.name, List.flatMap_map]
  rw [portSection, hdisabled, hrebuilt]
  rfl

section Sections
variable (f : Port → List PortDirective) {p q : Port}

theorem linesFor_disabled (hp : old.port? ifname = some p)
    (h : ∀ q, new.port? ifname = some q → p.interface ≠ q.interface) :
    linesFor ifname (blocks f (disabledPorts old new)) = f p := by
  obtain ⟨hpo, rfl⟩ := port?_eq_some_iff.mp hp
  exact linesFor_blocks_of_mem f (nodup_disabledPorts old new) (mem_disabledPorts.mpr ⟨hpo, h⟩)

theorem linesFor_disabled_eq_nil (h : ∀ p, old.port? ifname = some p →
      ∃ q, new.port? ifname = some q ∧ p.interface = q.interface) :
    linesFor ifname (blocks f (disabledPorts old new)) = [] := by
  refine linesFor_blocks_of_not_mem f (not_mem_names (fun p hp => (mem_disabledPorts.mp hp).1) ?_)
  intro p hp hmem
  obtain ⟨q, hq, heq⟩ := h p hp
  obtain ⟨_, rfl⟩ := port?_eq_some_iff.mp hp
  exact (mem_disabledPorts.mp hmem).2 q hq heq

theorem linesFor_rebuilt (hp : old.port? ifname = some p) (hq : new.port? ifname = some q)
    (heq : p.interface = q.interface) (h : ifname ∈ affected old new) :
    linesFor ifname (blocks f (rebuiltPorts old new)) = f q := by
  obtain ⟨hqn, rfl⟩ := port?_eq_some_iff.mp hq
  exact linesFor_blocks_of_mem f (nodup_rebuiltPorts old new) (mem_rebuiltPorts.mpr ⟨hqn, h, p, hp, heq⟩)

theorem linesFor_rebuilt_eq_nil (h : ∀ p q, old.port? ifname = some p → new.port? ifname = some q →
      p.interface = q.interface → ifname ∉ affected old new) :
    linesFor ifname (blocks f (rebuiltPorts old new)) = [] := by
  refine linesFor_blocks_of_not_mem f (not_mem_names (fun q hq => (mem_rebuiltPorts.mp hq).1) ?_)
  intro q hq hmem
  obtain ⟨_, rfl⟩ := port?_eq_some_iff.mp hq
  obtain ⟨_, ha, p, hp, heq⟩ := mem_rebuiltPorts.mp hmem
  exact h p q hp hq heq ha

theorem linesFor_added (hq : new.port? ifname = some q)
    (h : ∀ p, old.port? ifname = some p → p.interface ≠ q.interface) :
    linesFor ifname (blocks f (addedPorts old new)) = f q := by
  obtain ⟨hqn, rfl⟩ := port?_eq_some_iff.mp hq
  exact linesFor_blocks_of_mem f (nodup_addedPorts old new) (mem_addedPorts.mpr ⟨hqn, h⟩)

theorem linesFor_added_eq_nil (h : ∀ q, new.port? ifname = some q →
      ∃ p, old.port? ifname = some p ∧ p.interface = q.interface) :
    linesFor ifname (blocks f (addedPorts old new)) = [] := by
  refine linesFor_blocks_of_not_mem f (not_mem_names (fun q hq => (mem_addedPorts.mp hq).1) ?_)
  intro q hq hmem
  obtain ⟨p, hp, heq⟩ := h q hq
  obtain ⟨_, rfl⟩ := port?_eq_some_iff.mp hq
  exact (mem_addedPorts.mp hmem).2 p hp heq

end Sections

/-- In the last stage of a stream an interface gets what takes it to the new snapshot. -/
theorem linesFor_portSection (platform : LimitCapability) (ifname : String) :
    linesFor ifname (between old new platform).portSection = transition old new platform ifname := by
  rw [portSection_between, linesFor_append, linesFor_append, transition]
  cases hp : old.port? ifname with
  | none =>
    rw [linesFor_disabled_eq_nil _ (by simp [hp]), linesFor_rebuilt_eq_nil _ (by simp [hp])]
    cases hq : new.port? ifname with
    | none => rw [linesFor_added_eq_nil _ (by simp [hq])]; rfl
    | some q => rw [linesFor_added _ hq (by simp [hp])]; rfl
  | some p =>
    cases hq : new.port? ifname with
    | none =>
      rw [linesFor_disabled _ hp (by simp [hq]), linesFor_rebuilt_eq_nil _ (by simp [hq]),
        linesFor_added_eq_nil _ (by simp [hq])]
      rfl
    | some q =>
      by_cases heq : p.interface = q.interface
      · rw [linesFor_disabled_eq_nil _ (by simp [hp, hq, heq]), linesFor_added_eq_nil _ (by simp [hp, hq, heq])]
        by_cases ha : ifname ∈ affected old new
        · rw [linesFor_rebuilt _ hp hq heq ha]
          simp [ha]
        · rw [linesFor_rebuilt_eq_nil _ fun _ _ _ _ _ => ha]
          simp [heq, ha]
      · have hne : ∀ r, new.port? ifname = some r → p.interface ≠ r.interface := by simp [hq, heq]
        have hne' : ∀ r, old.port? ifname = some r → r.interface ≠ q.interface := by simp [hp, heq]
        rw [linesFor_disabled _ hp hne, linesFor_added _ hq hne', linesFor_rebuilt_eq_nil]
        · simp [heq]
        · intro p' q' hp' hq' heq'
          cases hp.symm.trans hp'
          exact absurd heq' (hne q' hq')

/-- The unbindings that a stream sends to one interface. -/
def unbindings (old new : Snapshot) (ifname : String) : List PortDirective :=
  linesFor ifname ((old.catalogue.outgoing new.catalogue).flatMap deletion)

theorem mem_unbindings (hold : old.Linked) {d : PortDirective} : d ∈ unbindings old new ifname ↔
    ∃ (m : PortMapKind) (name : String) (vlan : Nat) (p : Port), d = .unbind m name vlan ∧
      old.port? ifname = some p ∧ ⟨name, vlan⟩ ∈ p.interface.mapUses m ∧
      (m.objectKind, name) ∈ (old.catalogue.outgoing new.catalogue).map key := by
  rw [unbindings, mem_linesFor, List.mem_flatMap]
  constructor
  · rintro ⟨x, hx, hd⟩
    rcases mem_deletion.mp hd with hd | ⟨m, hm, b, hb, hd⟩
    · cases hd
    · cases hd
      obtain ⟨p, hp, hpb, hr⟩ := ((hold.users _ _ _ (Catalogue.mem_outgoing.mp hx).1).2 b).mp hb
      have hkind := ObjectKind.objectKind_of_portMap? hm
      refine ⟨m, x.name, b.vlan, p, rfl, port?_eq_some_iff.mpr ⟨hp, hpb⟩, ?_, ?_⟩
      · exact Catalogue.refersAt_objectKind.mp (hkind ▸ hr)
      · exact List.mem_map.mpr ⟨x, hx, by rw [key, hkind]⟩
  · rintro ⟨m, name, vlan, p, rfl, hp, hu, hout⟩
    obtain ⟨⟨kind, n, o⟩, hx, hk⟩ := List.mem_map.mp hout
    obtain ⟨rfl, rfl⟩ : kind = m.objectKind ∧ n = name := Prod.mk.inj hk
    obtain ⟨hpo, rfl⟩ := port?_eq_some_iff.mp hp
    have hb : ⟨p.name, vlan⟩ ∈ o.users := ((hold.users _ _ _ (Catalogue.mem_outgoing.mp hx).1).2 _).mpr
      ⟨p, hpo, rfl, Catalogue.refersAt_objectKind.mpr hu⟩
    exact ⟨_, hx, mem_deletion.mpr (.inr ⟨m, m.portMap?_objectKind, _, hb, rfl⟩)⟩

theorem unbindings_eq_nil (hold : old.Linked) (hp : old.port? ifname = none) : unbindings old new ifname = [] := by
  refine List.eq_nil_iff_forall_not_mem.mpr fun d hd => ?_
  obtain ⟨_, _, _, p, _, hp', _⟩ := (mem_unbindings hold).mp hd
  cases hp.symm.trans hp'

/-- What a stream says to one interface. -/
theorem linesFor_between (hold : old.catalogue.Named) (hnew : new.catalogue.Named) (platform : LimitCapability)
    (ifname : String) : linesFor ifname (between old new platform).instructions =
      unbindings old new ifname ++ transition old new platform ifname := by
  have hclearing : linesFor ifname (Platform.clearing old.catalogue.platform new.catalogue.platform) = [] := by
    refine linesFor_eq_nil_iff.mpr fun d hd => ?_
    obtain ⟨_, hd⟩ := Platform.mem_clearing hd
    cases hd
  have hdefinitions : linesFor ifname (between old new platform).definitions = [] := by
    rw [definitions_between hnew]
    refine linesFor_eq_nil_iff.mpr fun d hd => ?_
    rcases List.mem_append.mp hd with hd | hd
    · obtain ⟨_, _, hd⟩ := Platform.mem_setting hd
      cases hd
    · obtain ⟨x, _, hd⟩ := List.mem_flatMap.mp hd
      obtain ⟨_, _, hd⟩ := mem_creation.mp hd
      cases hd
  have hcommit : linesFor ifname (if (between old new platform).body.isEmpty then [] else [.commit]) = [] := by
    split <;> rfl
  rw [instructions_eq, linesFor_append, hcommit, body_eq, removals_between hold]
  simp only [linesFor_append, hclearing, hdefinitions, linesFor_portSection, List.nil_append, List.append_nil]
  rfl

end Plan
end QosControl
