import QosControl.Proofs.ProfileNumbers

/-! # The numbers of an index

The numbers of an index are those below its count, and two keys have one number only if it is that of
the global profile of their name. In the index of an interface, a name on a VLAN has the number of the
global profile of the name if there is one.
-/
namespace QosControl

namespace ProfileIndex

/-- What is under a text is under the key of that text, the numbers are those below the count, and a
number of two keys is that of the global profile of their name. -/
structure Numbered (i : ProfileIndex) : Prop where
  keyed : ∀ text n, i.findText? text = some n → ∃ key : ProfileKey, key.text = text
  bounded : ∀ key n, i.find? key = some n → n < i.count
  covered : ∀ n < i.count, ∃ key, i.find? key = some n
  shared : ∀ k j n, i.find? k = some n → i.find? j = some n →
    k = j ∨ k.name = j.name ∧ i.find? (.shared k.name) = some n

structure Sound (i : ProfileIndex) : Prop extends i.Numbered where
  isGlobal : ∀ n, i.isGlobal n = true ↔ ∃ name, i.find? (.shared name) = some n

/-- Whether a name on a VLAN has the number of the global profile of the name if that one is indexed. -/
def Aliased (i : ProfileIndex) : Prop :=
  ∀ vlan name n g, i.find? (.onVlan vlan name) = some n → i.find? (.shared name) = some g → n = g

variable {i : ProfileIndex} {key : ProfileKey} {n : Nat}

theorem exists_text_of_put (h : i.Numbered) (key : ProfileKey) (n : Nat) {text : String} {m : Nat}
    (hm : (i.put key n).findText? text = some m) : ∃ k : ProfileKey, k.text = text := by
  rw [findText?, put, Table.get?_insert] at hm
  split at hm
  next htext => exact ⟨key, htext⟩
  next => exact h.keyed text m hm

theorem Numbered.fresh (h : i.Numbered) (hkey : i.find? key = none) : (i.fresh key).Numbered := by
  refine ⟨fun text m => exists_text_of_put h key i.count, ?_, ?_, ?_⟩
  · intro j m hj
    rw [find?_fresh] at hj
    split at hj
    next =>
      cases hj
      exact Nat.lt_succ_self i.count
    next => exact Nat.lt_succ_of_lt (h.bounded j m hj)
  · intro m hm
    rcases Nat.lt_succ_iff_lt_or_eq.mp hm with hm | rfl
    · obtain ⟨j, hj⟩ := h.covered m hm
      refine ⟨j, ?_⟩
      rw [find?_fresh, if_neg (fun heq => by rw [← heq, hkey] at hj; cases hj), hj]
    · exact ⟨key, by rw [find?_fresh, if_pos rfl]⟩
  · -- the number that is given is above all that are in use
    intro k j m hk hj
    rw [find?_fresh] at hk hj ⊢
    split at hk
    next hkeyk =>
      cases hk
      split at hj
      next hkeyj => exact .inl (hkeyk.symm.trans hkeyj)
      next => exact absurd (h.bounded j _ hj) (Nat.lt_irrefl _)
    next =>
      split at hj
      next =>
        cases hj
        exact absurd (h.bounded k _ hk) (Nat.lt_irrefl _)
      next =>
        refine (h.shared k j m hk hj).imp_right fun ⟨hname, hglobal⟩ => ⟨hname, ?_⟩
        rw [if_neg (fun heq => by rw [← heq, hkey] at hglobal; cases hglobal), hglobal]

theorem Numbered.put (h : i.Numbered) (hkey : i.find? key = none) (hn : i.find? (.shared key.name) = some n) :
    (i.put key n).Numbered := by
  have hold : ∀ {j m}, i.find? j = some m → (i.put key n).find? j = some m := by
    intro j m hj
    rw [find?_put, if_neg (fun heq => by rw [← heq, hkey] at hj; cases hj), hj]
  have hname : ∀ j, i.find? j = some n → j.name = key.name := by
    intro j hj
    rcases h.shared j _ n hj hn with rfl | ⟨hname, _⟩
    · rfl
    · exact hname
  refine ⟨fun text m => exists_text_of_put h key n, ?_, ?_, ?_⟩
  · intro j m hj
    rw [find?_put] at hj
    split at hj
    next =>
      cases hj
      exact h.bounded _ n hn
    next => exact h.bounded j m hj
  · intro m hm
    obtain ⟨j, hj⟩ := h.covered m hm
    exact ⟨j, hold hj⟩
  · -- a key with the number is the global profile, or it shares its number with it
    intro k j m hk hj
    rw [find?_put] at hk hj
    split at hk
    next hkeyk =>
      cases hk
      split at hj
      next hkeyj => exact .inl (hkeyk.symm.trans hkeyj)
      next => exact .inr ⟨hkeyk ▸ (hname j hj).symm, hkeyk ▸ hold hn⟩
    next =>
      split at hj
      next hkeyj =>
        cases hj
        exact .inr ⟨hkeyj ▸ hname k hk, hname k hk ▸ hold hn⟩
      next => exact (h.shared k j m hk hj).imp_right fun ⟨hname, hglobal⟩ => ⟨hname, hold hglobal⟩

theorem Numbered.mark (h : i.Numbered) (n : Nat) : (i.mark n).Numbered :=
  ⟨h.keyed, h.bounded, h.covered, h.shared⟩

theorem sound_empty : empty.Sound where
  keyed text n h := by cases h
  bounded key n h := by cases h
  covered n h := by cases h
  shared k j n h := by cases h
  isGlobal n := by
    constructor
    · intro h
      cases h
    · rintro ⟨name, h⟩
      cases h

theorem isGlobal_mark (i : ProfileIndex) (n m : Nat) :
    (i.mark n).isGlobal m = true ↔ n = m ∨ i.isGlobal m = true := by
  rw [isGlobal, isGlobal, Table.contains, Table.contains, mark, Table.get?_insert]
  by_cases h : n = m <;> simp [h]

theorem Sound.insertGlobal (h : i.Sound) (name : String) : (i.insertGlobal name).Sound := by
  rw [ProfileIndex.insertGlobal, allotGlobal]
  split
  next => exact h
  next hkey =>
    refine ⟨(h.toNumbered.fresh hkey).mark i.count, fun m => ?_⟩
    simp only [isGlobal_mark, find?_mark, find?_fresh, ProfileKey.shared.injEq]
    constructor
    · rintro (rfl | hm)
      · exact ⟨name, if_pos rfl⟩
      · obtain ⟨a, ha⟩ := (h.isGlobal m).mp hm
        exact ⟨a, by rw [if_neg (fun heq => by rw [heq, ha] at hkey; cases hkey), ha]⟩
    · rintro ⟨a, ha⟩
      split at ha
      next => exact .inl (Option.some.inj ha)
      next => exact .inr ((h.isGlobal m).mpr ⟨a, ha⟩)

theorem Sound.insertLocal (h : i.Sound) (vlan : Nat) (name : String) : (i.insertLocal vlan name).Sound := by
  have hglobals : ∀ m, i.isGlobal m = true ↔ ∃ a, (i.insertLocal vlan name).find? (.shared a) = some m := by
    intro m
    simp only [find?_shared_insertLocal, h.isGlobal]
  revert hglobals
  rw [ProfileIndex.insertLocal, allotLocal]
  split
  next => exact fun _ => h
  next hkey hn => exact fun hglobals => ⟨h.toNumbered.put hkey hn, hglobals⟩
  next hkey _ => exact fun hglobals => ⟨h.toNumbered.fresh hkey, hglobals⟩

theorem Aliased.insertLocal (h : i.Aliased) (vlan : Nat) (name : String) : (i.insertLocal vlan name).Aliased := by
  intro v a n g hn hg
  rw [find?_shared_insertLocal] at hg
  rw [ProfileIndex.insertLocal, find?_allotLocal] at hn
  split at hn
  next heq =>
    -- the number that is returned is that of the global profile, or the one the key had before
    cases heq
    rw [← Option.some.inj hn, allotLocal]
    split
    next m hm => exact h vlan name m g hm hg
    next m _ hm => exact Option.some.inj (hm.symm.trans hg)
    next hnone => rw [hg] at hnone; cases hnone
  next => exact h v a n g hn hg

theorem isSome_resolve?_insertLocal (i : ProfileIndex) (vlan : Nat) (name : String) (k : Nat × String) :
    ((i.insertLocal vlan name).resolve? k.1 k.2).isSome = true ↔
      (i.resolve? k.1 k.2).isSome = true ∨ k = (vlan, name) := by
  have hkey : (ProfileKey.onVlan vlan name = .onVlan k.1 k.2) ↔ k = (vlan, name) := by
    rw [ProfileKey.onVlan.injEq, Prod.ext_iff, eq_comm, @eq_comm _ name]
  rw [resolve?, resolve?, insertLocal, find?_allotLocal]
  by_cases h : k = (vlan, name)
  · rw [if_pos (hkey.mpr h)]
    simp [h]
  · rw [if_neg (mt hkey.mp h)]
    simp [h]

/-- Indexes names on VLANs, one after the other. -/
def insertLocals (i : ProfileIndex) (names : List (Nat × String)) : ProfileIndex :=
  names.foldl (fun i k => i.insertLocal k.1 k.2) i

theorem sound_insertLocals (names : List (Nat × String)) (h : i.Sound) : (i.insertLocals names).Sound := by
  induction names generalizing i with
  | nil => exact h
  | cons k names ih => exact ih (h.insertLocal k.1 k.2)

theorem aliased_insertLocals (names : List (Nat × String)) (h : i.Aliased) :
    (i.insertLocals names).Aliased := by
  induction names generalizing i with
  | nil => exact h
  | cons k names ih => exact ih (h.insertLocal k.1 k.2)

theorem isSome_resolve?_insertLocals (names : List (Nat × String)) (i : ProfileIndex) (k : Nat × String) :
    ((i.insertLocals names).resolve? k.1 k.2).isSome = true ↔
      (i.resolve? k.1 k.2).isSome = true ∨ k ∈ names := by
  induction names generalizing i with
  | nil => simp [insertLocals]
  | cons k' names ih =>
    rw [insertLocals, List.foldl_cons, ← insertLocals, ih, isSome_resolve?_insertLocal, List.mem_cons, or_assoc]

theorem sound_insertGlobals (names : List String) (h : i.Sound) : (names.foldl insertGlobal i).Sound := by
  induction names generalizing i with
  | nil => exact h
  | cons name names ih => exact ih (h.insertGlobal name)

/-- Indexing global profiles puts no name on a VLAN. -/
theorem resolve?_insertGlobals (names : List String) (i : ProfileIndex) (vlan : Nat) (name : String) :
    (names.foldl insertGlobal i).resolve? vlan name = i.resolve? vlan name := by
  induction names generalizing i with
  | nil => rfl
  | cons g names ih =>
    rw [List.foldl_cons, ih, resolve?, insertGlobal, find?_allotGlobal, if_neg (by simp), resolve?]

theorem nodup_globals (i : ProfileIndex) : i.globals.Nodup := by
  rw [globals, (List.mergeSort_perm _ _).nodup_iff]
  refine (List.Nodup.of_map _ i.numbers.nodup_keys).filterMap ?_
  rintro ⟨s, n⟩ ⟨t, m⟩ g hs ht
  obtain ⟨a, ha, rfl⟩ := Option.map_eq_some_iff.mp hs
  obtain ⟨b, hb, heq⟩ := Option.map_eq_some_iff.mp ht
  cases heq
  have hs : s = _ := ProfileKey.sharedName?_eq_some_iff.mp ha
  have ht : t = _ := ProfileKey.sharedName?_eq_some_iff.mp hb
  rw [hs, ht]

/-- No two global profiles have one number. -/
theorem Sound.eq_of_mem_globals (h : i.Sound) {g k : String × Nat} (hg : g ∈ i.globals) (hk : k ∈ i.globals)
    (heq : g.2 = k.2) : g = k := by
  have hg := mem_globals.mp hg
  rw [heq] at hg
  rcases h.shared _ _ k.2 hg (mem_globals.mp hk) with hsame | ⟨hname, _⟩
  · exact Prod.ext (ProfileKey.shared.inj hsame) heq
  · exact Prod.ext hname heq

/-- A name on a VLAN has a global number exactly if the global profile of the name is indexed. -/
theorem Sound.isGlobal_iff_of_resolve? (h : i.Sound) (halias : i.Aliased) {vlan : Nat} {name : String}
    (hn : i.resolve? vlan name = some n) : i.isGlobal n = true ↔ (i.find? (.shared name)).isSome = true := by
  rw [h.isGlobal, Option.isSome_iff_exists]
  constructor
  · rintro ⟨g, hg⟩
    rcases h.shared _ _ n hg hn with hsame | ⟨hname, _⟩
    · cases hsame
    · have hname : g = name := hname
      exact ⟨n, hname ▸ hg⟩
  · rintro ⟨g, hg⟩
    rw [halias vlan name n g hn hg]
    exact ⟨name, hg⟩

end ProfileIndex

namespace Shaper
variable {s : Shaper} {globals : Profiles} {name : String}

/-- The names that a shaper indexes on its VLAN. -/
def indexedNames (s : Shaper) (globals : Profiles) : List String :=
  s.profiles.map (·.name) ++ s.referencedProfiles.filter fun name =>
    (s.localProfile? name).isNone && globals.contains name

theorem mem_names_profiles : name ∈ s.profiles.map (·.name) ↔ ∃ p, s.localProfile? name = some p := by
  rw [← Option.isSome_iff_exists, localProfile?, List.find?_isSome, List.mem_map]
  simp only [decide_eq_true_eq]

theorem mem_indexedNames : name ∈ s.indexedNames globals ↔
    (∃ p, s.localProfile? name = some p) ∨ name ∈ s.referencedProfiles ∧ globals.contains name = true := by
  rw [indexedNames, List.mem_append, mem_names_profiles, List.mem_filter, Bool.and_eq_true, Option.isNone_iff_eq_none]
  cases hp : s.localProfile? name <;> simp

theorem names_of_mem_indexedNames (h : name ∈ s.indexedNames globals) : s.Names name := by
  rcases mem_indexedNames.mp h with hlocal | hglobal
  · exact .inr (List.mem_map.mp (mem_names_profiles.mpr hlocal))
  · exact .inl hglobal.1

end Shaper

namespace Catalogue
variable {c : Catalogue} {i : Interface} {vlan : Nat} {name : String} {n : Nat}

theorem profileIndex_eq (c : Catalogue) (i : Interface) : c.profileIndex i =
    ((c.profileOrder.filter (c.usedGlobals i).contains).foldl ProfileIndex.insertGlobal .empty).insertLocals
      ((c.shapers i).flatMap fun x => (x.2.indexedNames c.profiles).map (x.1.vlan, ·)) := by
  rw [ProfileIndex.insertLocals, List.foldl_flatMap]
  simp only [List.foldl_map]
  rfl

theorem sound_profileIndex (c : Catalogue) (i : Interface) : (c.profileIndex i).Sound := by
  rw [profileIndex_eq]
  exact ProfileIndex.sound_insertLocals _ (ProfileIndex.sound_insertGlobals _ ProfileIndex.sound_empty)

theorem aliased_profileIndex (c : Catalogue) (i : Interface) : (c.profileIndex i).Aliased := by
  rw [profileIndex_eq]
  refine ProfileIndex.aliased_insertLocals _ ?_
  intro vlan name n g hn
  rw [← ProfileIndex.resolve?, ProfileIndex.resolve?_insertGlobals] at hn
  cases hn

/-- The names that are indexed on a VLAN are those of the shapers of its subports. -/
theorem isSome_resolve?_profileIndex : ((c.profileIndex i).resolve? vlan name).isSome = true ↔
    ∃ x ∈ c.shapers i, x.1.vlan = vlan ∧ name ∈ x.2.indexedNames c.profiles := by
  rw [profileIndex_eq, ProfileIndex.isSome_resolve?_insertLocals _ _ (vlan, name),
    ProfileIndex.resolve?_insertGlobals]
  simp only [List.mem_flatMap, List.mem_map, Prod.mk.injEq]
  constructor
  · rintro (hempty | ⟨x, hx, a, ha, rfl, rfl⟩)
    · cases hempty
    · exact ⟨x, hx, rfl, ha⟩
  · rintro ⟨x, hx, rfl, ha⟩
    exact .inr ⟨x, hx, name, ha, rfl, rfl⟩

/-- In the index of an interface, the number of a name is global exactly if a global profile has the name. -/
theorem isGlobal_profileIndex (horder : ∀ name, name ∈ c.profileOrder ↔ c.profiles.contains name = true)
    (hn : (c.profileIndex i).resolve? vlan name = some n) :
    (c.profileIndex i).isGlobal n = true ↔ c.profiles.contains name = true := by
  rw [(c.sound_profileIndex i).isGlobal_iff_of_resolve? (c.aliased_profileIndex i) hn, isSome_find?_profileIndex,
    horder, mem_usedGlobals]
  refine ⟨fun h => h.1, fun h => ⟨h, ?_, h⟩⟩
  obtain ⟨x, hx, _, hname⟩ := isSome_resolve?_profileIndex.mp (Option.isSome_iff_exists.mpr ⟨n, hn⟩)
  exact ⟨x, hx, Shaper.names_of_mem_indexedNames hname⟩

/-- A name on a VLAN that is the name of a global profile has the number of that profile. -/
theorem mem_globals_profileIndex (horder : ∀ name, name ∈ c.profileOrder ↔ c.profiles.contains name = true)
    (hn : (c.profileIndex i).resolve? vlan name = some n) (hcontains : c.profiles.contains name = true) :
    (name, n) ∈ (c.profileIndex i).globals := by
  have hglobal := (isGlobal_profileIndex horder hn).mpr hcontains
  rw [(c.sound_profileIndex i).isGlobal_iff_of_resolve? (c.aliased_profileIndex i) hn] at hglobal
  obtain ⟨g, hg⟩ := Option.isSome_iff_exists.mp hglobal
  have hng := c.aliased_profileIndex i vlan name n g hn hg
  exact ProfileIndex.mem_globals.mpr (hng ▸ hg)

end Catalogue
end QosControl
