import QosControl.Proofs.MemberPorts

/-! # Lists with keys

What is read of a keyed list depends on the order of entries of one key only. A table holds the
last entry of a key and a stable sort keeps the order of entries of a key, so both are the same
for lists that agree key by key.
-/
namespace QosControl
variable {α β γ κ : Type} [DecidableEq κ]

/-- Whether two lists have the same entries of every key, in the same order. -/
def SameByKey (key : α → κ) (as bs : List α) : Prop :=
  ∀ k, as.filter (fun a => key a = k) = bs.filter fun a => key a = k

namespace SameByKey
variable {key : α → κ} {as bs : List α}

theorem mem_iff (h : SameByKey key as bs) {a : α} : a ∈ as ↔ a ∈ bs := by
  have hmem : a ∈ as.filter (fun x => key x = key a) ↔ a ∈ bs.filter fun x => key x = key a := by
    rw [h (key a)]
  simpa using hmem

theorem of_cons {a : α} (h : SameByKey key (a :: as) (a :: bs)) : SameByKey key as bs := by
  intro k
  have hk := h k
  rw [List.filter_cons, List.filter_cons] at hk
  split at hk
  · exact (List.cons.inj hk).2
  · exact hk

theorem map {δ : Type} {name : δ → κ} (h : SameByKey key as bs) (f : α → δ) (hf : ∀ a, name (f a) = key a) :
    SameByKey name (as.map f) (bs.map f) := by
  intro k
  have hkey : (fun d => decide (name d = k)) ∘ f = fun a => decide (key a = k) :=
    funext fun a => by simp only [Function.comp_apply, hf]
  rw [List.filter_map, List.filter_map, hkey, h k]

theorem find?_eq (h : SameByKey key as bs) (k : κ) :
    as.find? (fun a => key a = k) = bs.find? fun a => key a = k := by
  rw [← List.head?_filter, h k, List.head?_filter]

theorem reverse (h : SameByKey key as bs) : SameByKey key as.reverse bs.reverse := by
  intro k
  rw [List.filter_reverse, h k, List.filter_reverse]

end SameByKey

namespace Table
variable [LT κ] [DecidableLT κ] [Key κ]

theorem ofList_congr {es fs : List (κ × α)} (h : SameByKey Prod.fst es fs) :
    Table.ofList es = Table.ofList fs := by
  refine eq_of_get? fun k => ?_
  rw [get?_ofList, get?_ofList, h.reverse.find?_eq k]

theorem ofNamed_congr {name : α → κ} {as bs : List α} (h : SameByKey name as bs) :
    ofNamed name as = ofNamed name bs :=
  ofList_congr (h.map _ fun _ => rfl)

end Table

section Sorting
variable {key : α → Nat} {as bs : List α}

/-- Sorting keeps the order of entries of a key. -/
theorem sameByKey_mergeSort (key : α → Nat) (as : List α) :
    SameByKey key (as.mergeSort fun a b => key a ≤ key b) as := by
  intro k
  -- entries of one key are in order as they are, so the sort leaves them as they are
  have htied : (as.filter fun a => key a = k).Pairwise fun a b => decide (key a ≤ key b) = true := by
    refine List.Pairwise.imp_of_mem (fun {a b} ha hb _ => ?_) (List.pairwise_of_forall fun _ _ => trivial)
    have hak := of_decide_eq_true (List.mem_filter.mp ha).2
    have hbk := of_decide_eq_true (List.mem_filter.mp hb).2
    exact decide_eq_true (by omega)
  have hsub := (List.sublist_mergeSort (fun a b c hab hbc => by simp only [decide_eq_true_eq] at *; omega)
    (fun a b => by simp only [Bool.or_eq_true, decide_eq_true_eq]; omega) htied List.filter_sublist).filter
      fun a => key a = k
  rw [List.filter_filter] at hsub
  simp only [Bool.and_self] at hsub
  exact (hsub.eq_of_length ((List.mergeSort_perm _ _).filter _).length_eq.symm).symm

theorem eq_of_sorted (h : SameByKey key as bs) (ha : as.Pairwise fun a b => key a ≤ key b)
    (hb : bs.Pairwise fun a b => key a ≤ key b) : as = bs := by
  induction as generalizing bs with
  | nil => exact (List.eq_nil_iff_forall_not_mem.mpr fun b hb => List.not_mem_nil (h.mem_iff.mpr hb)).symm
  | cons a as ih =>
    cases bs with
    | nil => exact absurd (h.mem_iff.mp List.mem_cons_self) List.not_mem_nil
    | cons b bs =>
      obtain ⟨hleast, htail⟩ := List.pairwise_cons.mp ha
      obtain ⟨hleast', htail'⟩ := List.pairwise_cons.mp hb
      -- each head is in the other list, and not below the head there
      have hab : key a = key b := by
        have hba : key b ≤ key a := by
          rcases List.mem_cons.mp (h.mem_iff.mp List.mem_cons_self) with heq | hmem
          · exact heq ▸ Nat.le_refl _
          · exact hleast' a hmem
        have hab : key a ≤ key b := by
          rcases List.mem_cons.mp (h.mem_iff.mpr List.mem_cons_self) with heq | hmem
          · exact heq ▸ Nat.le_refl _
          · exact hleast b hmem
        omega
      have hheads := h (key a)
      rw [List.filter_cons_of_pos (by simp), List.filter_cons_of_pos (by simp [hab])] at hheads
      cases (List.cons.inj hheads).1
      rw [ih h.of_cons htail htail']

theorem mergeSort_congr (h : SameByKey key as bs) :
    (as.mergeSort fun a b => key a ≤ key b) = bs.mergeSort fun a b => key a ≤ key b := by
  refine eq_of_sorted (fun k => ?_) (pairwise_mergeSort_by key as)
    (pairwise_mergeSort_by key bs)
  rw [sameByKey_mergeSort key as k, h k, sameByKey_mergeSort key bs k]

end Sorting

/-- Whether a list is a permutation of another in which entries of one key keep their order. -/
structure KeyedPerm (key : α → Option κ) (as bs : List α) : Prop where
  perm : as.Perm bs
  filter_eq : ∀ k, as.filter (fun a => key a = some k) = bs.filter fun a => key a = some k

namespace KeyedPerm
variable {key : α → Option κ} {as bs : List α}

theorem refl (key : α → Option κ) (as : List α) : KeyedPerm key as as := ⟨.refl as, fun _ => rfl⟩

/-- Neighbours of different keys can be swapped, and so can neighbours without a key. -/
theorem swap (as bs : List α) {a b : α} (h : key a = key b → key a = none) :
    KeyedPerm key (as ++ a :: b :: bs) (as ++ b :: a :: bs) where
  perm := (List.Perm.swap b a bs).append_left as
  filter_eq k := by
    rw [List.filter_append, List.filter_append]
    congr 1
    by_cases ha : key a = some k
    · have hb : key b ≠ some k := by
        intro hb
        cases ha.symm.trans (h (ha.trans hb.symm))
      simp [ha, hb]
    · by_cases hb : key b = some k <;> simp [ha, hb]

/-- What is collected from the entries of one key alone is the same. -/
theorem flatMap_eq (h : KeyedPerm key as bs) {g : α → List β} {k : κ} (hg : ∀ a, g a ≠ [] → key a = some k) :
    as.flatMap g = bs.flatMap g := by
  have hkey : ∀ cs : List α, cs.flatMap g = (cs.filter fun a => key a = some k).flatMap g := by
    intro cs
    induction cs with
    | nil => rfl
    | cons c cs ih =>
      by_cases hc : key c = some k
      · rw [List.filter_cons_of_pos (by simpa using hc), List.flatMap_cons, List.flatMap_cons, ih]
      · have hnil : g c = [] := by
          by_contra hne
          exact hc (hg c hne)
        rw [List.filter_cons_of_neg (by simpa using hc), List.flatMap_cons, hnil, List.nil_append, ih]
  rw [hkey as, h.filter_eq k, ← hkey bs]

end KeyedPerm

omit [DecidableEq κ] in
theorem Outcome.mapM_eq_ok_iff {f : α → Outcome β} {as : List α} {bs : List β} : as.mapM f = .ok bs ↔
    (∀ a ∈ as, ∃ b, f a = .ok b) ∧ bs = as.flatMap fun a => (f a).toOption.toList := by
  induction as generalizing bs with
  | nil => exact ⟨fun h => by cases h; simp, fun h => h.2 ▸ rfl⟩
  | cons a as ih =>
    rw [mapM_cons_eq_ok, List.forall_mem_cons, List.flatMap_cons]
    constructor
    · rintro ⟨b, cs, hb, hcs, rfl⟩
      obtain ⟨hall, rfl⟩ := ih.mp hcs
      exact ⟨⟨⟨b, hb⟩, hall⟩, by rw [hb]; rfl⟩
    · rintro ⟨⟨⟨b, hb⟩, hall⟩, rfl⟩
      exact ⟨b, _, hb, ih.mpr ⟨hall, rfl⟩, by rw [hb]; rfl⟩

omit [DecidableEq κ] in
theorem Outcome.mapM_of_forall₂ {f : α → Outcome β} {r : α → α → Prop}
    (hr : ∀ a c b, r a c → f a = .ok b → f c = .ok b) {as cs : List α} {bs : List β}
    (h : List.Forall₂ r as cs) (hbs : as.mapM f = .ok bs) : cs.mapM f = .ok bs := by
  induction h generalizing bs with
  | nil => exact hbs
  | cons hac _ ih =>
    obtain ⟨b, rest, hb, hrest, rfl⟩ := mapM_cons_eq_ok.mp hbs
    exact mapM_cons_eq_ok.mpr ⟨b, rest, hr _ _ b hac hb, ih hrest, rfl⟩

/-- Whether a list is permuted, and its entries are changed in ways that a relation allows. -/
def Rearranged (key : α → Option κ) (r : α → α → Prop) (as cs : List α) : Prop :=
  ∃ bs, KeyedPerm key as bs ∧ List.Forall₂ r bs cs

namespace Rearranged
variable {key : α → Option κ} {r : α → α → Prop} {as cs : List α} {f : α → Outcome β} {xs : List β}

theorem refl (key : α → Option κ) (hr : ∀ a, r a a) (as : List α) : Rearranged key r as as :=
  ⟨as, .refl key as, List.forall₂_same.mpr fun a _ => hr a⟩

/-- A list that is read entry by entry can be read after it is rearranged. What is collected from
the outcomes is the same by name, where the key of an entry is a matter of the names it brings. -/
theorem exists_mapM_flatMap {ν : Type} [DecidableEq ν] (h : Rearranged key r as cs)
    (hr : ∀ a c b, r a c → f a = .ok b → f c = .ok b) (g : β → List γ) (name : γ → ν) (keyOf : ν → κ)
    (hname : ∀ a b, f a = .ok b → ∀ c ∈ g b, key a = some (keyOf (name c))) (hxs : as.mapM f = .ok xs) :
    ∃ ys, cs.mapM f = .ok ys ∧ SameByKey name (xs.flatMap g) (ys.flatMap g) := by
  obtain ⟨bs, hperm, hrel⟩ := h
  obtain ⟨hall, rfl⟩ := Outcome.mapM_eq_ok_iff.mp hxs
  have hbs : bs.mapM f = .ok (bs.flatMap fun a => (f a).toOption.toList) :=
    Outcome.mapM_eq_ok_iff.mpr ⟨fun a ha => hall a (hperm.perm.mem_iff.mpr ha), rfl⟩
  refine ⟨_, Outcome.mapM_of_forall₂ hr hrel hbs, fun n => ?_⟩
  -- what has the name n comes from the entries of one key, which the permutation keeps in order
  rw [List.flatMap_assoc, List.flatMap_assoc, List.filter_flatMap, List.filter_flatMap]
  refine hperm.flatMap_eq (k := keyOf n) fun a hne => ?_
  obtain ⟨c, hc⟩ := List.exists_mem_of_ne_nil _ hne
  obtain ⟨hc, hn⟩ := List.mem_filter.mp hc
  obtain ⟨b, hb, hc⟩ := List.mem_flatMap.mp hc
  have hfa : f a = .ok b := Outcome.eq_ok_of_toOption (Option.mem_toList.mp hb)
  rw [hname a b hfa c hc, of_decide_eq_true hn]

/-- Where entries are read under their keys, the outcome has the same entries of every key. -/
theorem exists_mapM (h : Rearranged key r as cs) (hr : ∀ a c b, r a c → f a = .ok b → f c = .ok b)
    (name : β → κ) (hname : ∀ a b, f a = .ok b → key a = some (name b)) (hxs : as.mapM f = .ok xs) :
    ∃ ys, cs.mapM f = .ok ys ∧ SameByKey name xs ys := by
  obtain ⟨ys, hys, hsame⟩ := h.exists_mapM_flatMap hr (fun b => [b]) name id
    (fun a b hb c hc => List.mem_singleton.mp hc ▸ hname a b hb) hxs
  rw [List.flatMap_singleton', List.flatMap_singleton'] at hsame
  exact ⟨ys, hys, hsame⟩

/-- Where all entries have one key, the outcome is the same. -/
theorem mapM_inOrder (h : Rearranged (fun _ => some ()) r as cs)
    (hr : ∀ a c b, r a c → f a = .ok b → f c = .ok b) (hxs : as.mapM f = .ok xs) : cs.mapM f = .ok xs := by
  obtain ⟨ys, hys, hsame⟩ := h.exists_mapM hr (fun _ => ()) (fun _ _ _ => rfl) hxs
  have hall := hsame ()
  simp only [decide_true, List.filter_true] at hall
  rw [hall, hys]

end Rearranged
end QosControl
