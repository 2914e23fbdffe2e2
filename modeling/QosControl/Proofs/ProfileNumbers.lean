import QosControl.Proofs.BackReferences

/-! # What profile numbers depend on

The text of a key tells its name and its VLAN, whatever the name, so that looking a text up
is looking up its key. The index of an interface knows the global profiles that its shapers
name, and it is determined by the shapers, by which of the names are global, and by the order
in which the global ones are declared.
-/
namespace QosControl

namespace ProfileKey

def name : ProfileKey → String
  | .shared name => name
  | .onVlan _ name => name

theorem toList_text_shared (name : String) : (shared name).text.toList = "global ".toList ++ name.toList := by
  rw [text, String.toList_append]
  rfl

theorem toList_text_onVlan (vlan : Nat) (name : String) :
    (onVlan vlan name).text.toList = Nat.toDigits 10 vlan ++ ' ' :: name.toList := by
  have hvlan : (toString vlan).toList = Nat.toDigits 10 vlan := String.toList_ofList
  simp only [text, String.toList_append, hvlan, List.append_assoc]
  rfl

/-- The text of a name on a VLAN begins with a digit. -/
theorem text_shared_ne_text_onVlan {name other : String} {vlan : Nat} :
    (shared name).text ≠ (onVlan vlan other).text := by
  intro h
  have hchars := congrArg String.toList h
  rw [toList_text_shared, toList_text_onVlan] at hchars
  cases hdigits : Nat.toDigits 10 vlan with
  | nil => exact Nat.toDigits_ne_nil hdigits
  | cons c cs =>
    have hc : c.isDigit = true := Nat.isDigit_of_mem_toDigits (by decide) (by decide) (hdigits ▸ List.mem_cons_self)
    rw [hdigits] at hchars
    cases (List.cons.inj hchars).1
    exact absurd hc (by decide)

theorem text_injective : Function.Injective text := by
  intro k j h
  have hchars := congrArg String.toList h
  cases k with
  | shared a =>
    cases j with
    | shared b =>
      rw [toList_text_shared, toList_text_shared, List.append_right_inj] at hchars
      rw [String.toList_inj.mp hchars]
    | onVlan w b => exact absurd h text_shared_ne_text_onVlan
  | onVlan v a =>
    cases j with
    | shared b => exact absurd h.symm text_shared_ne_text_onVlan
    | onVlan w b =>
      rw [toList_text_onVlan, toList_text_onVlan] at hchars
      -- the VLAN is what stands before the first character that is no digit
      have hall : ∀ n, ∀ c ∈ Nat.toDigits 10 n, c.isDigit = true := fun n c hc =>
        Nat.isDigit_of_mem_toDigits (by decide) (by decide) hc
      have hdigits := congrArg (List.takeWhile Char.isDigit) hchars
      rw [List.takeWhile_append_of_pos (hall v), List.takeWhile_append_of_pos (hall w)] at hdigits
      simp only [List.takeWhile_cons, show Char.isDigit ' ' = false from rfl, Bool.false_eq_true, if_false,
        List.append_nil] at hdigits
      rw [hdigits, List.append_right_inj, List.cons.injEq] at hchars
      have hvlan := congrArg (fun ds => Nat.ofDigitChars 10 ds 0) hdigits
      simp only [Nat.ofDigitChars_ten_toDigits] at hvlan
      rw [hvlan, String.toList_inj.mp hchars.2]

theorem sharedName?_eq_some_iff {key name : String} : sharedName? key = some name ↔ key = (shared name).text := by
  rw [sharedName?, ← String.toList_inj, toList_text_shared]
  constructor
  · intro h
    split at h
    next hprefix =>
      obtain ⟨rest, hrest⟩ := List.isPrefixOf_iff_prefix.mp hprefix
      rw [← hrest, List.drop_left] at h
      cases h
      rw [← hrest, @String.toList_ofList rest]
    next => cases h
  · intro h
    rw [h, if_pos (List.isPrefixOf_iff_prefix.mpr (List.prefix_append _ _)), List.drop_left, String.ofList_toList]

end ProfileKey

namespace ProfileIndex

theorem find?_empty (key : ProfileKey) : empty.find? key = none := rfl

theorem find?_put (i : ProfileIndex) (key : ProfileKey) (n : Nat) (j : ProfileKey) :
    (i.put key n).find? j = if key = j then some n else i.find? j := by
  simp only [find?, findText?, put, Table.get?_insert, ProfileKey.text_injective.eq_iff]

theorem find?_fresh (i : ProfileIndex) (key j : ProfileKey) :
    (i.fresh key).find? j = if key = j then some i.count else i.find? j :=
  find?_put i key i.count j

theorem find?_mark (i : ProfileIndex) (n : Nat) (key : ProfileKey) : (i.mark n).find? key = i.find? key := rfl

theorem find?_allotGlobal (i : ProfileIndex) (name : String) (j : ProfileKey) :
    (i.allotGlobal name).2.find? j = if .shared name = j then some (i.allotGlobal name).1 else i.find? j := by
  unfold allotGlobal
  split
  next n hn =>
    split
    next h => rw [← h, hn]
    next => rfl
  next => rw [find?_mark, find?_fresh]

theorem find?_allotLocal (i : ProfileIndex) (vlan : Nat) (name : String) (j : ProfileKey) :
    (i.allotLocal vlan name).2.find? j =
      if .onVlan vlan name = j then some (i.allotLocal vlan name).1 else i.find? j := by
  unfold allotLocal
  split
  next n _ hn =>
    split
    next h => rw [← h, ← hn, resolve?]
    next => rfl
  next => exact i.find?_put _ _ j
  next => exact i.find?_fresh _ j

theorem find?_shared_insertLocal (i : ProfileIndex) (vlan : Nat) (name shared : String) :
    (i.insertLocal vlan name).find? (.shared shared) = i.find? (.shared shared) := by
  rw [insertLocal, find?_allotLocal, if_neg (by simp)]

theorem isSome_find?_insertGlobal (i : ProfileIndex) (name shared : String) :
    ((i.insertGlobal name).find? (.shared shared)).isSome = true ↔
      (i.find? (.shared shared)).isSome = true ∨ name = shared := by
  rw [insertGlobal, find?_allotGlobal]
  by_cases h : name = shared <;> simp [h]

theorem isSome_find?_insertGlobals (names : List String) (i : ProfileIndex) (shared : String) :
    ((names.foldl insertGlobal i).find? (.shared shared)).isSome = true ↔
      (i.find? (.shared shared)).isSome = true ∨ shared ∈ names := by
  induction names generalizing i with
  | nil => simp
  | cons name names ih =>
    rw [List.foldl_cons, ih, isSome_find?_insertGlobal, List.mem_cons, or_assoc, @eq_comm _ name]

theorem find?_shared_insertLocals (names : List String) (i : ProfileIndex) (vlan : Nat) (shared : String) :
    (names.foldl (fun i name => i.insertLocal vlan name) i).find? (.shared shared) =
      i.find? (.shared shared) := by
  induction names generalizing i with
  | nil => rfl
  | cons name names ih => rw [List.foldl_cons, ih, find?_shared_insertLocal]

/-- The listed global profiles are the indexed ones. -/
theorem mem_globals {i : ProfileIndex} {name : String} {n : Nat} :
    (name, n) ∈ i.globals ↔ i.find? (.shared name) = some n := by
  rw [globals, List.mem_mergeSort, List.mem_filterMap]
  constructor
  · rintro ⟨⟨text, m⟩, he, hg⟩
    obtain ⟨a, ha, heq⟩ := Option.map_eq_some_iff.mp hg
    cases heq
    rw [find?, ← ProfileKey.sharedName?_eq_some_iff.mp ha]
    exact Table.get?_of_mem_entries he
  · intro h
    refine ⟨_, Table.mem_entries_of_get? h, ?_⟩
    rw [ProfileKey.sharedName?_eq_some_iff.mpr rfl, Option.map_some]

end ProfileIndex

/-- Whether a shaper names a profile: for a pipe, or as one of its local profiles. -/
def Shaper.Names (s : Shaper) (name : String) : Prop :=
  name ∈ s.referencedProfiles ∨ ∃ p ∈ s.profiles, p.name = name

theorem Shaper.mem_referencedGlobals {s : Shaper} {globals : Profiles} {name : String} :
    name ∈ s.referencedGlobals globals ↔ s.Names name ∧ globals.contains name = true := by
  rw [referencedGlobals, mem_sortedKeys, List.mem_filter, List.mem_append, List.mem_map, Names]

namespace Catalogue

/-- Whether a shaper of an interface names a profile. -/
def Names (c : Catalogue) (i : Interface) (name : String) : Prop :=
  ∃ x ∈ c.shapers i, x.2.Names name

/-- The global profiles that the shapers of an interface name. -/
def usedGlobals (c : Catalogue) (i : Interface) : List String :=
  (c.shapers i).flatMap fun x => x.2.referencedGlobals c.profiles

theorem mem_usedGlobals {c : Catalogue} {i : Interface} {name : String} :
    name ∈ c.usedGlobals i ↔ c.Names i name ∧ c.profiles.contains name = true := by
  simp only [usedGlobals, List.mem_flatMap, Shaper.mem_referencedGlobals, Names]
  exact ⟨fun ⟨x, hx, hn, hg⟩ => ⟨⟨x, hx, hn⟩, hg⟩, fun ⟨⟨x, hx, hn⟩, hg⟩ => ⟨x, hx, hn, hg⟩⟩

theorem find?_shared_indexed (c : Catalogue) (shapers : List (Subport × Shaper)) (index : ProfileIndex)
    (name : String) :
    (shapers.foldl (fun index x => x.2.indexProfiles index x.1.vlan c.profiles) index).find? (.shared name) =
      index.find? (.shared name) := by
  induction shapers generalizing index with
  | nil => rfl
  | cons x xs ih =>
    rw [List.foldl_cons, ih]
    exact ProfileIndex.find?_shared_insertLocals _ index x.1.vlan name

theorem isSome_find?_profileIndex {c : Catalogue} {i : Interface} {name : String} :
    ((c.profileIndex i).find? (.shared name)).isSome = true ↔
      name ∈ c.profileOrder ∧ name ∈ c.usedGlobals i := by
  rw [profileIndex, find?_shared_indexed, ProfileIndex.isSome_find?_insertGlobals, List.mem_filter,
    List.contains_iff_mem]
  simp [ProfileIndex.find?_empty, usedGlobals]

/-- Two configurations number the profiles of an interface alike if they agree on its
shapers, on which of the names are global, and on the order of the global ones. -/
theorem profileIndex_congr {c d : Catalogue} {i : Interface} (hshapers : c.shapers i = d.shapers i)
    (hnames : ∀ name, c.Names i name → c.profiles.contains name = d.profiles.contains name)
    (horder : c.profileOrder.filter (c.usedGlobals i).contains =
      d.profileOrder.filter (c.usedGlobals i).contains) :
    c.profileIndex i = d.profileIndex i := by
  have hused : c.usedGlobals i = d.usedGlobals i := by
    rw [usedGlobals, usedGlobals, ← hshapers]
    refine List.flatMap_congr fun x hx => congrArg sortedKeys (List.filter_congr fun name hn => ?_)
    refine hnames name ⟨x, hx, ?_⟩
    rwa [Shaper.Names, ← List.mem_map, ← List.mem_append]
  have hglobals : (c.profileOrder.filter (c.usedGlobals i).contains).foldl ProfileIndex.insertGlobal .empty =
      (d.profileOrder.filter (d.usedGlobals i).contains).foldl ProfileIndex.insertGlobal .empty := by
    rw [← hused, horder]
  rw [profileIndex, profileIndex, ← hshapers]
  change List.foldl _ ((c.profileOrder.filter (c.usedGlobals i).contains).foldl _ _) _ = _
  rw [hglobals, usedGlobals, ← hshapers]
  refine List.foldl_ext _ _ _ fun index x hx => ?_
  unfold Shaper.indexProfiles
  refine congrArg (fun names => (x.2.profiles.map Profile.name ++ names).foldl _ index)
    (List.filter_congr fun name hn => ?_)
  rw [hnames name ⟨x, hx, .inl hn⟩]

end Catalogue
end QosControl
