import QosControl.Proofs.Balance

/-! # What interfaces hold

An interface holds the lines that it was sent, until a disable takes all of them off or the
unbinding of a map takes its binding off. What an interface holds after a stream depends on
the lines of the stream for this interface alone.
-/
namespace QosControl

abbrev Held := String → List PortDirective

/-- The lines of an interface after one more. -/
def PortDirective.onto (held : List PortDirective) : PortDirective → List PortDirective
  | .disable => []
  | .unbind m name v => held.filter (· ≠ .bind m name v)
  | d => held ++ [d]

section Onto
variable {held ds : List PortDirective} {d : PortDirective}

theorem mem_onto_unbind {kind : PortMapKind} {map : String} {vlan : Nat} :
    d ∈ PortDirective.onto held (.unbind kind map vlan) ↔ d ∈ held ∧ d ≠ .bind kind map vlan := by
  simp [PortDirective.onto]

/-- Unbinding takes off the bindings that it names, and nothing else. -/
theorem mem_foldl_onto_unbind (hds : ∀ d ∈ ds, ∃ m name vlan, d = .unbind m name vlan) :
    d ∈ ds.foldl PortDirective.onto held ↔
      d ∈ held ∧ ∀ m name vlan, .unbind m name vlan ∈ ds → d ≠ .bind m name vlan := by
  induction ds generalizing held with
  | nil => simp
  | cons e es ih =>
    obtain ⟨k, map, v, rfl⟩ := hds e List.mem_cons_self
    have hes : ∀ d ∈ es, ∃ m name vlan, d = .unbind m name vlan :=
      fun d hd => hds d (List.mem_cons_of_mem _ hd)
    rw [List.foldl_cons, ih hes, mem_onto_unbind, and_assoc]
    refine and_congr_right fun _ => ?_
    constructor
    · rintro ⟨hne, h⟩ m name vlan hmem
      rcases List.mem_cons.mp hmem with hmem | hmem
      · cases hmem
        exact hne
      · exact h m name vlan hmem
    · intro h
      exact ⟨h k map v List.mem_cons_self, fun m name vlan hmem => h m name vlan (List.mem_cons_of_mem _ hmem)⟩

/-- Lines that take nothing off add up. -/
theorem foldl_onto_eq_append (hdisable : .disable ∉ ds) (hunbind : ∀ m name vlan, .unbind m name vlan ∉ ds) :
    ds.foldl PortDirective.onto held = held ++ ds := by
  induction ds generalizing held with
  | nil => simp
  | cons e es ih =>
    have he : PortDirective.onto held e = held ++ [e] := by
      cases e with
      | disable => exact absurd List.mem_cons_self hdisable
      | unbind m name vlan => exact absurd List.mem_cons_self (hunbind m name vlan)
      | _ => rfl
    rw [List.foldl_cons, he, ih (fun h => hdisable (List.mem_cons_of_mem _ h)) fun m name vlan h =>
      hunbind m name vlan (List.mem_cons_of_mem _ h), List.append_assoc, List.singleton_append]

end Onto

namespace Held

def none : Held := fun _ => []

def step (h : Held) : Instruction → Held
  | .port name d => fun ifname => if ifname = name then d.onto (h ifname) else h ifname
  | _ => h

def replay (h : Held) (is : List Instruction) : Held := is.foldl step h

theorem replay_append (h : Held) (is js : List Instruction) : h.replay (is ++ js) = (h.replay is).replay js :=
  List.foldl_append

/-- Only its own lines matter to an interface. -/
theorem replay_eq_foldl (h : Held) (is : List Instruction) (ifname : String) :
    h.replay is ifname = (linesFor ifname is).foldl PortDirective.onto (h ifname) := by
  induction is generalizing h with
  | nil => rfl
  | cons i is ih =>
    have hone : (linesFor ifname [i]).foldl PortDirective.onto (h ifname) = h.step i ifname := by
      cases i with
      | port name d =>
        by_cases hn : ifname = name
        · simp [linesFor, step, hn]
        · simp [linesFor, step, hn, Ne.symm hn]
      | _ => rfl
    rw [← List.singleton_append, linesFor_append, List.foldl_append, hone, List.singleton_append]
    exact ih (h.step i)

end Held

namespace Snapshot
variable {platform : LimitCapability}

/-- What interfaces hold once they are configured as in a snapshot. -/
def held (s : Snapshot) (platform : LimitCapability) : Held := fun ifname =>
  match s.port? ifname with
  | some p => directives s.catalogue platform p
  | none => []

theorem mem_held {s : Snapshot} {ifname : String} {d : PortDirective} : d ∈ s.held platform ifname ↔
    ∃ p, s.port? ifname = some p ∧ d ∈ directives s.catalogue platform p := by
  rw [held]
  cases s.port? ifname <;> simp

end Snapshot
end QosControl
