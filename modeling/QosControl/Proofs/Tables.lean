import Mathlib.Data.List.Nodup
import QosControl.Table

/-! # Looking up in tables

A table has one entry for each key, so looking a key up is the same as finding its
entry. Inserting an entry, changing the values and reading a list into a table are
described by what they look up.
-/
namespace QosControl.Table
variable {κ α β : Type} [LT κ] [DecidableEq κ]

theorem mem_entries_of_get? {t : Table κ α} {k : κ} {a : α} (h : t.get? k = some a) :
    (k, a) ∈ t.entries := by
  obtain ⟨e, he, rfl⟩ := Option.map_eq_some_iff.mp h
  have hk : e.1 = k := by simpa using List.find?_some he
  exact hk ▸ List.mem_of_find?_eq_some he

theorem contains_iff {t : Table κ α} {k : κ} : t.contains k = true ↔ ∃ a, t.get? k = some a :=
  Option.isSome_iff_exists

theorem contains_eq_false_iff {t : Table κ α} {k : κ} : t.contains k = false ↔ t.get? k = none := by
  simp [contains]

theorem get?_mapEntries (t : Table κ α) (f : κ → α → β) (k : κ) :
    (t.mapEntries f).get? k = (t.get? k).map (f k) := by
  obtain ⟨es, hes⟩ := t
  simp only [get?, mapEntries]
  clear hes
  induction es with
  | nil => rfl
  | cons e es ih =>
    by_cases h : e.1 = k
    · simp [h]
    · simpa [h] using ih

section Ordered
variable [Key κ]

omit [DecidableEq κ] in
theorem nodup_keys (t : Table κ α) : t.keys.Nodup := by
  refine List.pairwise_map.mpr (t.ascending.imp fun {a b} h => ?_)
  exact fun heq => Key.irrefl b.1 (heq ▸ h)

theorem get?_of_mem_entries {t : Table κ α} {e : κ × α} (h : e ∈ t.entries) :
    t.get? e.1 = some e.2 := by
  cases hf : t.entries.find? fun d => d.1 = e.1 with
  | none => simpa using List.find?_eq_none.mp hf e h
  | some d =>
    have hd : d.1 = e.1 := by simpa using List.find?_some hf
    have hde : d = e := List.inj_on_of_nodup_map t.nodup_keys (List.mem_of_find?_eq_some hf) h hd
    simp only [get?, hf, Option.map_some, hde]

theorem mem_entries_iff {t : Table κ α} {e : κ × α} : e ∈ t.entries ↔ t.get? e.1 = some e.2 :=
  ⟨get?_of_mem_entries, mem_entries_of_get?⟩

/-- A table is determined by what it looks up. -/
theorem eq_of_get? {s t : Table κ α} (h : ∀ k, s.get? k = t.get? k) : s = t := by
  have hmem : ∀ e, e ∈ s.entries ↔ e ∈ t.entries := fun e => by rw [mem_entries_iff, mem_entries_iff, h]
  have hperm : s.entries.Perm t.entries :=
    (List.perm_ext_iff_of_nodup s.nodup_keys.of_map t.nodup_keys.of_map).mpr hmem
  have hentries : s.entries = t.entries := by
    refine hperm.eq_of_pairwise (fun a b _ _ hab hba => ?_) s.ascending t.ascending
    exact absurd (Key.trans hab hba) (Key.irrefl a.1)
  obtain ⟨es, hes⟩ := s
  obtain ⟨fs, hfs⟩ := t
  cases hentries
  rfl

theorem mem_values_iff {t : Table κ α} {a : α} : a ∈ t.values ↔ ∃ k, t.get? k = some a := by
  constructor
  · intro h
    obtain ⟨e, he, rfl⟩ := List.mem_map.mp h
    exact ⟨e.1, get?_of_mem_entries he⟩
  · rintro ⟨k, h⟩
    exact List.mem_map.mpr ⟨(k, a), mem_entries_of_get? h, rfl⟩

variable [DecidableLT κ]

omit [Key κ] in
theorem find?_place (k : κ) (a : α) (es : List (κ × α)) (j : κ)
    (h : es.Pairwise fun a b => a.1 < b.1) :
    ((place k a es).find? fun e => e.1 = j) = if k = j then some (k, a) else es.find? fun e => e.1 = j := by
  induction es with
  | nil => by_cases hkj : k = j <;> simp [place, hkj]
  | cons e es ih =>
    obtain ⟨he, hes⟩ := List.pairwise_cons.mp h
    simp only [place]
    split
    next hk => by_cases hkj : k = j <;> simp [hkj]
    next hk =>
      split
      next heq =>
        subst heq
        by_cases hkj : e.1 = j <;> simp [hkj]
      next hne =>
        by_cases hej : e.1 = j
        · have hkj : k ≠ j := fun hkj => hne (hkj.trans hej.symm)
          simp [hej, hkj]
        · simp [hej, ih hes]

theorem get?_insert (t : Table κ α) (k : κ) (a : α) (j : κ) :
    (t.insert k a).get? j = if k = j then some a else t.get? j := by
  simp only [get?, insert, find?_place k a t.entries j t.ascending]
  split <;> rfl

theorem get?_foldl_insert (es : List (κ × α)) (t : Table κ α) (k : κ) :
    (es.foldl (fun t e => t.insert e.1 e.2) t).get? k =
      ((es.reverse.find? fun e => e.1 = k).map (·.2)).or (t.get? k) := by
  -- the last entry of a key wins, so the list is searched from its end
  induction es generalizing t with
  | nil => simp
  | cons e es ih =>
    rw [List.foldl_cons, ih, get?_insert, List.reverse_cons, List.find?_append]
    cases es.reverse.find? fun e => e.1 = k with
    | some d => simp
    | none => by_cases h : e.1 = k <;> simp [h]

/-- A table of a list holds the last entry of each key. -/
theorem get?_ofList (es : List (κ × α)) (k : κ) :
    (ofList es).get? k = (es.reverse.find? fun e => e.1 = k).map (·.2) := by
  rw [ofList, get?_foldl_insert]
  simp [empty, get?]

theorem mem_of_get?_ofList {es : List (κ × α)} {k : κ} {a : α} (h : (ofList es).get? k = some a) :
    (k, a) ∈ es := by
  rw [get?_ofList] at h
  obtain ⟨e, he, rfl⟩ := Option.map_eq_some_iff.mp h
  have hk : e.1 = k := by simpa using List.find?_some he
  exact hk ▸ List.mem_reverse.mp (List.mem_of_find?_eq_some he)

theorem contains_ofList {es : List (κ × α)} {k : κ} :
    (ofList es).contains k = true ↔ k ∈ es.map (·.1) := by
  simp [contains, get?_ofList]

/-- Where the keys are distinct no entry of the list is lost. -/
theorem get?_ofList_of_mem {es : List (κ × α)} (hes : (es.map (·.1)).Nodup) {e : κ × α} (h : e ∈ es) :
    (ofList es).get? e.1 = some e.2 := by
  have hk : (ofList es).contains e.1 = true := contains_ofList.mpr (List.mem_map_of_mem h)
  obtain ⟨a, ha⟩ := contains_iff.mp hk
  have he : (e.1, a) = e := List.inj_on_of_nodup_map hes (mem_of_get?_ofList ha) h rfl
  rw [ha, ← congrArg Prod.snd he]

end Ordered
end QosControl.Table

namespace QosControl
variable {κ : Type} [LT κ] [DecidableEq κ] [DecidableLT κ] [Key κ]

theorem mem_sortedKeys {ks : List κ} {k : κ} : k ∈ sortedKeys ks ↔ k ∈ ks := by
  have h : k ∈ sortedKeys ks ↔ (Table.ofList (ks.map fun k => (k, ()))).contains k = true := by
    rw [Table.contains_iff, sortedKeys, Table.keys, List.mem_map]
    constructor
    · rintro ⟨e, he, rfl⟩
      exact ⟨e.2, Table.get?_of_mem_entries he⟩
    · rintro ⟨a, ha⟩
      exact ⟨(k, a), Table.mem_entries_of_get? ha, rfl⟩
  rw [h, Table.contains_ofList]
  simp

theorem ascending_sortedKeys (ks : List κ) : (sortedKeys ks).Pairwise (· < ·) :=
  List.pairwise_map.mpr (Table.ofList _).ascending

/-- Sorting keys forgets their order and repetitions. -/
theorem sortedKeys_congr {ks js : List κ} (h : ∀ k, k ∈ ks ↔ k ∈ js) : sortedKeys ks = sortedKeys js := by
  have hmem : ∀ k, k ∈ sortedKeys ks ↔ k ∈ sortedKeys js := fun k => by rw [mem_sortedKeys, mem_sortedKeys, h]
  have hperm : (sortedKeys ks).Perm (sortedKeys js) :=
    (List.perm_ext_iff_of_nodup (Table.nodup_keys _) (Table.nodup_keys _)).mpr hmem
  refine hperm.eq_of_pairwise (fun a b _ _ hab hba => ?_) (ascending_sortedKeys ks) (ascending_sortedKeys js)
  exact absurd (Key.trans hab hba) (Key.irrefl a)

/-- A list that is sorted by a number is in ascending order of the number. -/
theorem pairwise_mergeSort_by {α : Type} (key : α → Nat) (as : List α) :
    (as.mergeSort fun a b => key a ≤ key b).Pairwise fun a b => key a ≤ key b := by
  refine (List.pairwise_mergeSort (fun a b c hab hbc => ?_) (fun a b => ?_) as).imp of_decide_eq_true
  · simp only [decide_eq_true_eq] at *
    omega
  · simp only [Bool.or_eq_true, decide_eq_true_eq]
    omega

end QosControl
