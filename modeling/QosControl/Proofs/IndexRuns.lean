import Mathlib.Data.List.Induction
import QosControl.Proofs.ProfileIndexing

/-! # Runs of an index

An index is filled by calls, each of which indexes a key and returns its number. After any run of calls
each key has the number that was returned for it, and the global profiles are listed in ascending order
of their numbers.
-/
namespace QosControl

namespace ProfileIndex
variable {i : ProfileIndex} {key : ProfileKey} {n : Nat}

/-- Indexes a global profile or a name on a VLAN, and returns its number. -/
def allot (i : ProfileIndex) : ProfileKey → Nat × ProfileIndex
  | .shared name => i.allotGlobal name
  | .onVlan vlan name => i.allotLocal vlan name

def returned (i : ProfileIndex) (key : ProfileKey) : Nat := (i.allot key).1

def index (i : ProfileIndex) (key : ProfileKey) : ProfileIndex := (i.allot key).2

/-- The number that is returned for a key is its own if it has one, that of the global profile of its
name if there is one, and the next one otherwise. -/
theorem returned_eq (i : ProfileIndex) (key : ProfileKey) : i.returned key =
    ((i.findText? key.text).or (i.findText? (ProfileKey.shared key.name).text)).getD i.count := by
  rw [← find?, ← find?, returned]
  cases key with
  | shared name =>
    rw [allot, allotGlobal, ProfileKey.name, Option.or_self]
    cases i.find? (.shared name) <;> rfl
  | onVlan vlan name =>
    rw [allot, allotLocal, ProfileKey.name, resolve?]
    cases i.find? (.onVlan vlan name) with
    | some n => rfl
    | none => cases i.find? (.shared name) <;> rfl

theorem find?_index (i : ProfileIndex) (key j : ProfileKey) :
    (i.index key).find? j = if key = j then some (i.returned key) else i.find? j := by
  cases key with
  | shared name => exact find?_allotGlobal i name j
  | onVlan vlan name => exact find?_allotLocal i vlan name j

theorem Sound.index (h : i.Sound) (key : ProfileKey) : (i.index key).Sound := by
  cases key with
  | shared name => exact h.insertGlobal name
  | onVlan vlan name => exact h.insertLocal vlan name

theorem Sound.exists_key (h : i.Sound) {text : String} (hn : i.findText? text = some n) :
    ∃ key : ProfileKey, key.text = text ∧ i.find? key = some n := by
  obtain ⟨key, rfl⟩ := h.keyed text n hn
  exact ⟨key, rfl, hn⟩

/-- Whether the global profiles are listed in ascending order of their numbers. -/
def AscendingGlobals (i : ProfileIndex) : Prop := i.globals.Pairwise fun g k => g.2 < k.2

theorem Sound.ascendingGlobals (h : i.Sound) : i.AscendingGlobals := by
  have hle : i.globals.Pairwise fun g k => g.2 ≤ k.2 := pairwise_mergeSort_by Prod.snd _
  refine (hle.and i.nodup_globals).imp_of_mem fun {g k} hg hk ⟨hgk, hne⟩ => ?_
  exact Nat.lt_of_le_of_ne hgk fun heq => hne (h.eq_of_mem_globals hg hk heq)

section Runs

def run (keys : List ProfileKey) : ProfileIndex := keys.foldl index .empty

theorem run_append (before after : List ProfileKey) : run (before ++ after) = after.foldl index (run before) :=
  List.foldl_append

theorem sound_run (keys : List ProfileKey) : (run keys).Sound := by
  induction keys using List.reverseRecOn with
  | nil => exact sound_empty
  | append_singleton keys key ih => exact run_append keys [key] ▸ ih.index key

/-- A number once given is kept. -/
theorem find?_foldl_index (keys : List ProfileKey) (h : i.find? key = some n) :
    (keys.foldl index i).find? key = some n := by
  induction keys generalizing i with
  | nil => exact h
  | cons k keys ih =>
    refine ih ?_
    rw [find?_index]
    split
    next heq =>
      subst heq
      rw [returned_eq, ← find?, h]
      rfl
    next => exact h

theorem find?_run_of_mem (before : List ProfileKey) (key : ProfileKey) (after : List ProfileKey) :
    (run (before ++ key :: after)).find? key = some ((run before).returned key) := by
  rw [run_append, List.foldl_cons]
  refine find?_foldl_index after ?_
  rw [find?_index, if_pos rfl]

theorem isSome_find?_run {keys : List ProfileKey} : ((run keys).find? key).isSome = true ↔ key ∈ keys := by
  induction keys using List.reverseRecOn with
  | nil => simp [run, find?_empty]
  | append_singleton keys k ih =>
    rw [run_append, List.foldl_cons, List.foldl_nil, find?_index]
    by_cases hk : k = key
    · simp [hk]
    · simp [hk, ih, Ne.symm hk]

end Runs

/-- What is true of the index that a run of calls leaves. Keys are looked up by their texts. -/
structure Consistent (keys : List ProfileKey) (i : ProfileIndex) : Prop where
  stored : ∀ text, (i.findText? text).isSome = true ↔ ∃ key ∈ keys, key.text = text
  bounded : ∀ text n, i.findText? text = some n → n < i.count
  covered : ∀ n < i.count, ∃ text, i.findText? text = some n
  returned : ∀ key : ProfileKey, i.returned key =
    ((i.findText? key.text).or (i.findText? s!"global {key.name}")).getD i.count
  kept : ∀ key n, i.findText? key.text = some n →
    i.returned key = n ∧ ∀ later : List ProfileKey, (later.foldl index i).findText? key.text = some n
  shared : ∀ (k j : ProfileKey) (n : Nat), i.findText? k.text = some n → i.findText? j.text = some n →
    k = j ∨ k.name = j.name ∧ i.findText? s!"global {k.name}" = some n
  inserted : ∀ name, (i.findText? s!"global {name}").isSome = true ↔ .shared name ∈ keys
  isGlobal : ∀ n, i.isGlobal n = true ↔ ∃ name, .shared name ∈ keys ∧ i.findText? s!"global {name}" = some n
  resolved : ∀ vlan name n, i.resolve? vlan name = some n ↔
    ∃ before after, keys = before ++ .onVlan vlan name :: after ∧ n = (run before).returned (.onVlan vlan name)
  resolve? : ∀ vlan name, i.resolve? vlan name = i.findText? s!"{vlan} {name}"
  globals : ∀ name n, (name, n) ∈ i.globals ↔ i.findText? s!"global {name}" = some n
  names : (i.globals.map (·.1)).Nodup
  ascending : i.AscendingGlobals

/-- Every run of calls leaves a consistent index. -/
theorem consistent_run (keys : List ProfileKey) : Consistent keys (run keys) := by
  have hsound := sound_run keys
  constructor
  case stored =>
    intro text
    constructor
    · intro h
      obtain ⟨n, hn⟩ := Option.isSome_iff_exists.mp h
      obtain ⟨key, htext, hkey⟩ := hsound.exists_key hn
      exact ⟨key, isSome_find?_run.mp (by rw [hkey]; rfl), htext⟩
    · rintro ⟨key, hkey, rfl⟩
      exact isSome_find?_run.mpr hkey
  case bounded =>
    intro text n h
    obtain ⟨key, _, hkey⟩ := hsound.exists_key h
    exact hsound.bounded key n hkey
  case covered =>
    intro n hn
    obtain ⟨key, hkey⟩ := hsound.covered n hn
    exact ⟨key.text, hkey⟩
  case returned => exact (run keys).returned_eq
  case kept =>
    intro key n h
    exact ⟨by rw [returned_eq, h]; rfl, fun later => find?_foldl_index later h⟩
  case shared => exact hsound.shared
  case inserted =>
    intro name
    change ((run keys).find? (.shared name)).isSome = true ↔ _
    exact isSome_find?_run
  case isGlobal =>
    intro n
    rw [hsound.isGlobal]
    refine exists_congr fun name => ?_
    rw [← isSome_find?_run]
    exact ⟨fun h => ⟨by rw [h]; rfl, h⟩, fun h => h.2⟩
  case resolved =>
    intro vlan name n
    constructor
    · intro h
      have hkey : .onVlan vlan name ∈ keys := isSome_find?_run.mp (by rw [← resolve?, h]; rfl)
      obtain ⟨before, after, rfl⟩ := List.append_of_mem hkey
      rw [resolve?, find?_run_of_mem, Option.some.injEq] at h
      exact ⟨before, after, rfl, h.symm⟩
    · rintro ⟨before, after, rfl, rfl⟩
      exact find?_run_of_mem before _ after
  case resolve? => exact fun vlan name => rfl
  case globals => exact fun name n => mem_globals
  case names =>
    refine List.pairwise_map.mpr (hsound.ascendingGlobals.imp_of_mem fun {g k} hg hk hlt heq => ?_)
    -- a name has one number
    have hg := mem_globals.mp hg
    have hk := mem_globals.mp hk
    rw [← heq, hg, Option.some.injEq] at hk
    omega
  case ascending => exact hsound.ascendingGlobals

end ProfileIndex
end QosControl
