import QosControl.Proofs.Balance

/-! # The layout of a stream

A stream removes objects, defines objects, disables ports, rebuilds ports and adds ports,
in this order, and a commit ends it if it does anything. A port is disabled or rebuilt but
not both, and what is said of it begins with its disable, apart from the unbinding of maps.
-/
namespace QosControl.Plan
open Snapshot NamedObject

/-- Instructions with the commit that ends a stream which does anything. -/
def committed (is : List Instruction) : List Instruction := if is.isEmpty then [] else is ++ [.commit]

theorem instructions_eq_committed (plan : Plan) : plan.instructions = committed plan.body := rfl

theorem committed_append {objects ports : List Instruction} (h : ports = [] → objects = []) :
    committed (objects ++ ports) = objects ++ committed ports := by
  cases ports with
  | nil => simp [committed, h rfl]
  | cons i is => simp [committed]

theorem committed_eq_nil_iff {is : List Instruction} : committed is = [] ↔ is = [] := by
  cases is <;> simp [committed]

theorem mem_of_mem_committed {is : List Instruction} {i : Instruction} (h : i ∈ committed is) :
    i ∈ is ∨ i = .commit := by
  cases is with
  | nil => cases h
  | cons j is => exact (List.mem_append.mp h).imp id List.mem_singleton.mp

/-- A stream between two snapshots cut into its sections. -/
structure Layout (old new : Snapshot) (platform : LimitCapability) (is : List Instruction) where
  removals : List Instruction
  definitions : List Instruction
  disabled : List Port
  rebuilt : List Port
  added : List Port
  eq : is = committed (removals ++ definitions ++ disabled.map (fun p => .port p.name .disable) ++
    rebuilt.flatMap (fun q => .port q.name .disable :: new.attachment platform q) ++
    added.flatMap (new.attachment platform))
  deletes : ∀ i ∈ removals, i.command.operation = .delete ∧
    ((∃ switch, i = .clearSwitch switch) ∨ (∃ kind name, i = .remove kind name) ∨
      ∃ ifname m name vlan, i = .port ifname (.unbind m name vlan))
  sets : ∀ i ∈ definitions, i.command.operation = .set ∧ i.command.target = everyTarget ∧
    ((∃ switch n, i = .setSwitch switch n) ∨ ∃ kind name line, i = .define kind name line)
  /-- The old ports that are gone or not as they were. -/
  mem_disabled : ∀ p, p ∈ disabled ↔ p ∈ old.ports ∧ ∀ q, new.port? p.name = some q → p.interface ≠ q.interface
  /-- Ports that both snapshots have alike. -/
  kept : ∀ q ∈ rebuilt, q ∈ new.ports ∧ ∃ p, old.port? q.name = some p ∧ p.interface = q.interface
  /-- The new ports that were not there or not as they are. -/
  mem_added : ∀ q, q ∈ added ↔ q ∈ new.ports ∧ ∀ p, old.port? q.name = some p → p.interface ≠ q.interface
  ordered : added.Sublist new.ports
  nodup_disabled : (disabled.map Port.name).Nodup
  nodup_rebuilt : (rebuilt.map Port.name).Nodup
  nodup_added : (added.map Port.name).Nodup
  /-- A port that is rebuilt is neither disabled nor added. -/
  disjoint : ∀ q ∈ rebuilt, q.name ∉ disabled.map Port.name ∧ q.name ∉ added.map Port.name

variable {old new : Snapshot}

theorem deletes_of_mem_removals (hold : old.catalogue.Named) {platform : LimitCapability} {i : Instruction}
    (hi : i ∈ (between old new platform).removals) : i.command.operation = .delete ∧
      ((∃ switch, i = .clearSwitch switch) ∨ (∃ kind name, i = .remove kind name) ∨
        ∃ ifname m name vlan, i = .port ifname (.unbind m name vlan)) := by
  rw [removals_between hold] at hi
  rcases List.mem_append.mp hi with hi | hi
  · obtain ⟨switch, rfl⟩ := Platform.mem_clearing hi
    exact ⟨rfl, .inl ⟨switch, rfl⟩⟩
  · obtain ⟨x, _, hi⟩ := List.mem_flatMap.mp hi
    rcases mem_deletion.mp hi with rfl | ⟨m, _, b, _, rfl⟩
    · exact ⟨rfl, .inr (.inl ⟨_, _, rfl⟩)⟩
    · exact ⟨rfl, .inr (.inr ⟨_, _, _, _, rfl⟩)⟩

theorem sets_of_mem_definitions (hnew : new.catalogue.Named) {platform : LimitCapability} {i : Instruction}
    (hi : i ∈ (between old new platform).definitions) : i.command.operation = .set ∧
      i.command.target = everyTarget ∧
      ((∃ switch n, i = .setSwitch switch n) ∨ ∃ kind name line, i = .define kind name line) := by
  rw [definitions_between hnew] at hi
  rcases List.mem_append.mp hi with hi | hi
  · obtain ⟨switch, n, rfl⟩ := Platform.mem_setting hi
    exact ⟨rfl, rfl, .inl ⟨switch, n, rfl⟩⟩
  · obtain ⟨x, _, hi⟩ := List.mem_flatMap.mp hi
    obtain ⟨line, _, rfl⟩ := mem_creation.mp hi
    exact ⟨rfl, rfl, .inr ⟨_, _, _, rfl⟩⟩

theorem nonempty_layout (hold : old.catalogue.Named) (hnew : new.catalogue.Named) (platform : LimitCapability) :
    Nonempty (Layout old new platform (between old new platform).instructions) := by
  refine ⟨{
    removals := (between old new platform).removals
    definitions := (between old new platform).definitions
    disabled := disabledPorts old new
    rebuilt := rebuiltPorts old new
    added := addedPorts old new
    eq := ?_
    deletes := fun i hi => deletes_of_mem_removals hold hi
    sets := fun i hi => sets_of_mem_definitions hnew hi
    mem_disabled := fun p => mem_disabledPorts
    kept := fun q hq => ⟨(mem_rebuiltPorts.mp hq).1, (mem_rebuiltPorts.mp hq).2.2⟩
    mem_added := fun q => mem_addedPorts
    ordered := List.filter_sublist
    nodup_disabled := nodup_disabledPorts old new
    nodup_rebuilt := nodup_rebuiltPorts old new
    nodup_added := nodup_addedPorts old new
    disjoint := ?_ }⟩
  · have hdisabled : blocks (fun _ => [.disable]) (disabledPorts old new) =
        (disabledPorts old new).map fun p => .port p.name .disable := by
      simp [blocks, ← List.map_eq_flatMap]
    rw [instructions_eq_committed, body_eq, portSection_between, hdisabled]
    simp only [List.append_assoc]
    rfl
  · intro q hq
    obtain ⟨hqn, _, p, hp, heq⟩ := mem_rebuiltPorts.mp hq
    have hq' : new.port? q.name = some q := port?_eq_some_iff.mpr ⟨hqn, rfl⟩
    constructor
    · intro hmem
      obtain ⟨r, hr, hrq⟩ := List.mem_map.mp hmem
      obtain ⟨hro, hne⟩ := mem_disabledPorts.mp hr
      cases hp.symm.trans (port?_eq_some_iff.mpr ⟨hro, hrq⟩)
      exact hne q (hrq ▸ hq') heq
    · intro hmem
      obtain ⟨r, hr, hrq⟩ := List.mem_map.mp hmem
      obtain ⟨hrn, hne⟩ := mem_addedPorts.mp hr
      cases hq'.symm.trans (port?_eq_some_iff.mpr ⟨hrn, hrq⟩)
      exact hne p hp heq

section Once
variable {ifname : String}

theorem disable_not_mem_unbindings (hold : old.Linked) : .disable ∉ unbindings old new ifname := by
  intro h
  obtain ⟨_, _, _, _, h, _⟩ := (mem_unbindings hold).mp h
  cases h

theorem enable_not_mem_unbindings (hold : old.Linked) : .enable ∉ unbindings old new ifname := by
  intro h
  obtain ⟨_, _, _, _, h, _⟩ := (mem_unbindings hold).mp h
  cases h

theorem count_disable_le_one (hold : old.Linked) (hnew : new.Linked) (platform : LimitCapability)
    (ifname : String) : (between old new platform).instructions.count (.port ifname .disable) ≤ 1 := by
  obtain ⟨lines, hlines, _, h⟩ := transition_eq old new platform ifname
  have hzero := List.count_eq_zero_of_not_mem hlines
  rw [← count_linesFor, linesFor_between hold.named hnew.named, List.count_append,
    List.count_eq_zero_of_not_mem (disable_not_mem_unbindings hold)]
  rcases h with h | h <;> simp [h, hzero]

theorem count_enable_le_one (hold : old.Linked) (hnew : new.Linked) (platform : LimitCapability)
    (ifname : String) : (between old new platform).instructions.count (.port ifname .enable) ≤ 1 := by
  obtain ⟨lines, _, hlines, h⟩ := transition_eq old new platform ifname
  rw [← count_linesFor, linesFor_between hold.named hnew.named, List.count_append,
    List.count_eq_zero_of_not_mem (enable_not_mem_unbindings hold)]
  rcases h with h | h <;> simpa [h] using hlines

/-- Before the disable of an interface stands nothing of it but the unbinding of maps. -/
theorem unbind_of_before_disable (hold : old.Linked) (hnew : new.Linked) (platform : LimitCapability)
    {before after : List Instruction}
    (h : (between old new platform).instructions = before ++ .port ifname .disable :: after)
    {d : PortDirective} (hd : .port ifname d ∈ before) : ∃ m name vlan, d = .unbind m name vlan := by
  obtain ⟨lines, hlines, _, htransition⟩ := transition_eq old new platform ifname
  have hsplit : unbindings old new ifname ++ transition old new platform ifname =
      linesFor ifname before ++ .disable :: linesFor ifname after := by
    rw [← linesFor_between hold.named hnew.named, h, linesFor_append]
    simp [linesFor]
  obtain ⟨rest, hbefore, hrest⟩ := exists_append_of_not_mem (disable_not_mem_unbindings hold) hsplit
  have hnil : rest = [] := by
    rcases htransition with ht | ht
    · exact absurd (by rw [← ht, hrest]; simp) hlines
    · cases rest with
      | nil => rfl
      | cons e rest =>
        rw [ht, List.cons_append, List.cons.injEq] at hrest
        exact absurd (by rw [hrest.2]; simp) hlines
  rw [hnil, List.append_nil] at hbefore
  obtain ⟨m, name, vlan, _, rfl, _⟩ := (mem_unbindings hold).mp (hbefore ▸ mem_linesFor.mpr hd)
  exact ⟨m, name, vlan, rfl⟩

end Once

/-- A stream between two snapshots falls into its sections, and disables and enables every
interface once at most, the disable first. -/
theorem laid_out_between (hold : old.Read) (hnew : new.Read) (platform : LimitCapability) :
    Nonempty (Layout old new platform (between old new platform).instructions) ∧
    ∀ ifname, (between old new platform).instructions.count (.port ifname .disable) ≤ 1 ∧
      (between old new platform).instructions.count (.port ifname .enable) ≤ 1 ∧
      ∀ before after, (between old new platform).instructions = before ++ .port ifname .disable :: after →
        ∀ d, .port ifname d ∈ before → ∃ m name vlan, d = .unbind m name vlan := by
  refine ⟨nonempty_layout hold.linked.named hnew.linked.named platform, fun ifname => ⟨?_, ?_, ?_⟩⟩
  · exact count_disable_le_one hold.linked hnew.linked platform ifname
  · exact count_enable_le_one hold.linked hnew.linked platform ifname
  · intro before after h d hd
    exact unbind_of_before_disable hold.linked hnew.linked platform h hd

/-- A port that loses a map is disabled and enabled again. -/
theorem laid_out_between_unbound :
    let old := mapped [(Schema.ingressMap, "in")]
    let stream := (between old (mapped []) .packets).instructions
    Nonempty (Layout old (mapped []) .packets stream) ∧ stream.count (.port "dp0s1" .disable) = 1 ∧
      stream.count (.port "dp0s1" .enable) = 1 :=
  ⟨(laid_out_between (read_orEmpty _ _) (read_orEmpty _ _) .packets).1, by decide +kernel, by decide +kernel⟩

end QosControl.Plan
