import Mathlib.Data.List.Basic
import QosControl.Proofs.Rebuild

/-! # The ledger of shared objects

A ledger says which shared objects are there. Lines that define an object put it
there, its removal takes it away. The stream of a plan keeps the books in order: it
starts from the live objects of the old snapshot, removes only what is there, binds
only what is there, and leaves the live objects of the new snapshot.
-/
namespace QosControl

/-- Which objects are there. -/
abbrev Ledger := ObjectKind → String → Bool

/-- The objects of a catalogue that are not held back. -/
def Catalogue.live (c : Catalogue) : Ledger := fun kind name => (c.object? kind name).any fun o => !o.deferred

/-- Whether an instruction defines or removes an object. -/
def Instruction.Touches (i : Instruction) (kind : ObjectKind) (name : String) : Prop :=
  i = .remove kind name ∨ ∃ body, i = .define kind name body

namespace Ledger

/-- The ledger after an instruction. -/
def step (l : Ledger) (i : Instruction) : Ledger := fun kind name =>
  match i with
  | .define k n _ => if k = kind ∧ n = name then true else l kind name
  | .remove k n => if k = kind ∧ n = name then false else l kind name
  | _ => l kind name

def replay (l : Ledger) (is : List Instruction) : Ledger := is.foldl step l

variable {l : Ledger} {kind : ObjectKind} {name : String}

theorem replay_append (l : Ledger) (is js : List Instruction) : l.replay (is ++ js) = (l.replay is).replay js :=
  List.foldl_append

theorem step_of_not_touches {i : Instruction} (h : ¬ i.Touches kind name) :
    l.step i kind name = l kind name := by
  cases i with
  | define k n body =>
    refine if_neg fun hkn => h (.inr ⟨body, ?_⟩)
    rw [hkn.1, hkn.2]
  | remove k n =>
    refine if_neg fun hkn => h (.inl ?_)
    rw [hkn.1, hkn.2]
  | port ifname d => rfl
  | setSwitch switch value => rfl
  | clearSwitch switch => rfl
  | commit => rfl

theorem replay_of_not_touches {is : List Instruction} (h : ∀ i ∈ is, ¬ i.Touches kind name) :
    l.replay is kind name = l kind name := by
  induction is generalizing l with
  | nil => rfl
  | cons i is ih =>
    rw [replay, List.foldl_cons, ← replay, ih fun j hj => h j (List.mem_cons_of_mem _ hj)]
    exact step_of_not_touches (h i List.mem_cons_self)

theorem replay_define (l : Ledger) (lines : List String) : l.replay (lines.map (.define kind name)) kind name =
    (l kind name || !lines.isEmpty) := by
  induction lines generalizing l with
  | nil => simp [replay]
  | cons line lines ih =>
    rw [List.map_cons, replay, List.foldl_cons, ← replay, ih]
    simp [step]

end Ledger

namespace NamedObject
variable {x : NamedObject} {kind : ObjectKind} {name : String}

theorem key_eq_of_touches_deletion {i : Instruction} (hi : i ∈ x.deletion) (h : i.Touches kind name) :
    x.key = (kind, name) := by
  rcases mem_deletion.mp hi with rfl | ⟨m, _, b, _, rfl⟩
  · rcases h with h | ⟨_, h⟩ <;> cases h
    rfl
  · rcases h with h | ⟨_, h⟩ <;> cases h

theorem key_eq_of_touches_creation {i : Instruction} (hi : i ∈ x.creation) (h : i.Touches kind name) :
    x.key = (kind, name) := by
  obtain ⟨body, _, rfl⟩ := mem_creation.mp hi
  rcases h with h | ⟨_, h⟩ <;> cases h
  rfl

theorem not_touches_unbinding {i : Instruction} (hi : i ∈ x.unbinding) : ¬ i.Touches kind name := by
  unfold unbinding at hi
  cases hm : x.kind.portMap? with
  | none => simp [hm] at hi
  | some m =>
    rw [hm] at hi
    obtain ⟨b, _, rfl⟩ := List.mem_map.mp hi
    rintro (h | ⟨_, h⟩) <;> cases h

theorem replay_deletion (l : Ledger) (x : NamedObject) (kind : ObjectKind) (name : String) :
    l.replay x.deletion kind name = (l kind name && decide (x.key ≠ (kind, name))) := by
  by_cases hx : x.key = (kind, name)
  · cases hx
    rw [deletion, Ledger.replay_append]
    simp [Ledger.replay, Ledger.step, key]
  · rw [Ledger.replay_of_not_touches fun i hi h => hx (key_eq_of_touches_deletion hi h)]
    simp [hx]

/-- Removing objects takes away what is there of them, and nothing else. -/
theorem replay_deletions (l : Ledger) (xs : List NamedObject) (kind : ObjectKind) (name : String) :
    l.replay (xs.flatMap deletion) kind name = (l kind name && decide ((kind, name) ∉ xs.map key)) := by
  induction xs generalizing l with
  | nil => simp [Ledger.replay]
  | cons x xs ih =>
    rw [List.flatMap_cons, Ledger.replay_append, ih, replay_deletion]
    simp [Bool.and_assoc, eq_comm]

theorem replay_creation (l : Ledger) {x : NamedObject} (hx : x.key = (kind, name) → x.entry.lines ≠ []) :
    l.replay x.creation kind name = (l kind name || decide (x.key = (kind, name))) := by
  by_cases hk : x.key = (kind, name)
  · have hlines := hx hk
    cases hk
    rw [creation, Ledger.replay_define]
    simp [hlines, key]
  · rw [Ledger.replay_of_not_touches fun i hi h => hk (key_eq_of_touches_creation hi h)]
    simp [hk]

/-- Defining objects that have lines puts them there, and nothing else. -/
theorem replay_creations (l : Ledger) {xs : List NamedObject}
    (hxs : ∀ x ∈ xs, x.key = (kind, name) → x.entry.lines ≠ []) :
    l.replay (xs.flatMap creation) kind name = (l kind name || decide ((kind, name) ∈ xs.map key)) := by
  induction xs generalizing l with
  | nil => simp [Ledger.replay]
  | cons x xs ih =>
    rw [List.flatMap_cons, Ledger.replay_append, ih _ fun y hy => hxs y (List.mem_cons_of_mem _ hy),
      replay_creation l (hxs x List.mem_cons_self)]
    simp [Bool.or_assoc, eq_comm]

end NamedObject
namespace Catalogue
open NamedObject
variable {a b : Catalogue} {kind : ObjectKind} {name : String}

theorem live_eq_true_iff {c : Catalogue} :
    c.live kind name = true ↔ ∃ o, c.object? kind name = some o ∧ o.deferred = false := by
  simp [live, Option.any_eq_true]

theorem lines_ne_nil {c : Catalogue} (hkind : kind ≠ .markMap) {o : ObjectEntry}
    (ho : c.object? kind name = some o) : o.lines ≠ [] := by
  cases kind with
  | markMap => exact absurd rfl hkind
  | ingressMap =>
    obtain ⟨s, _, rfl⟩ := Option.map_eq_some_iff.mp ho
    simp [Shared.entry, Provisioned.lines]
  | egressMap =>
    obtain ⟨s, _, rfl⟩ := Option.map_eq_some_iff.mp ho
    simp [Shared.entry, Provisioned.lines]
  | actionGroup =>
    obtain ⟨s, _, rfl⟩ := Option.map_eq_some_iff.mp ho
    simp [Shared.entry, Provisioned.lines]

theorem mem_keys_outgoing : (kind, name) ∈ (a.outgoing b).map key ↔
    ∃ o, a.object? kind name = some o ∧ o.deferred = false ∧ ∀ t, b.object? kind name = some t →
      t.deferred = true ∨ (a.Redefines b kind name ∧ t.users = []) := by
  rw [List.mem_map]
  constructor
  · rintro ⟨x, hx, hk⟩
    cases hk
    exact ⟨x.entry, mem_outgoing.mp hx⟩
  · rintro ⟨o, h⟩
    exact ⟨⟨kind, name, o⟩, mem_outgoing.mpr h, rfl⟩

theorem mem_keys_incoming : (kind, name) ∈ (a.incoming b).map key ↔
    ∃ t, b.object? kind name = some t ∧ t.deferred = false ∧ ∀ o, a.object? kind name = some o →
      o.deferred = true ∨ a.Redefines b kind name := by
  rw [List.mem_map]
  constructor
  · rintro ⟨x, hx, hk⟩
    cases hk
    exact ⟨x.entry, mem_incoming.mp hx⟩
  · rintro ⟨o, h⟩
    exact ⟨⟨kind, name, o⟩, mem_incoming.mpr h, rfl⟩

/-- What is live afterwards was live and stays, or is defined. -/
theorem live_iff (a b : Catalogue) (kind : ObjectKind) (name : String) : b.live kind name = true ↔
    (a.live kind name = true ∧ (kind, name) ∉ (a.outgoing b).map key) ∨
      (kind, name) ∈ (a.incoming b).map key := by
  rw [mem_keys_outgoing, mem_keys_incoming, live_eq_true_iff, live_eq_true_iff]
  constructor
  · rintro ⟨t, ht, hd⟩
    -- what is live and does not come was live before, with the definition that it has now
    by_cases hin : ∀ o, a.object? kind name = some o → o.deferred = true ∨ a.Redefines b kind name
    · exact .inr ⟨t, ht, hd, hin⟩
    · push Not at hin
      obtain ⟨o, ho, hod, hsame⟩ := hin
      refine .inl ⟨⟨o, ho, by simpa using hod⟩, ?_⟩
      rintro ⟨_, _, _, hout⟩
      rcases hout t ht with h | ⟨h, _⟩
      · rw [hd] at h
        cases h
      · exact hsame h
  · rintro (⟨⟨o, ho, hd⟩, hout⟩ | ⟨t, ht, hd, _⟩)
    · by_contra hlive
      refine hout ⟨o, ho, hd, fun t ht => .inl ?_⟩
      by_contra hdt
      exact hlive ⟨t, ht, by simpa using hdt⟩
    · exact ⟨t, ht, hd⟩

/-- Removing what goes and defining what comes takes the live objects of one catalogue
to those of the other. Mark maps are left out: one without entries has no line. -/
theorem replay_live (a b : Catalogue) (hkind : kind ≠ .markMap) :
    ((a.live.replay ((a.outgoing b).flatMap deletion)).replay ((a.incoming b).flatMap creation)) kind name =
      b.live kind name := by
  have hlines : ∀ x ∈ a.incoming b, x.key = (kind, name) → x.entry.lines ≠ [] := by
    intro x hx hk
    cases hk
    exact lines_ne_nil hkind (mem_incoming.mp hx).1
  rw [replay_creations _ hlines, replay_deletions, Bool.eq_iff_iff, live_iff a b]
  simp

end Catalogue
end QosControl
