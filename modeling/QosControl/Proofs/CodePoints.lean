import Mathlib.Data.List.Nodup
import QosControl.Dscp
import QosControl.Proofs.NumberTexts

/-! # Texts that are code points

A code point is spelled by its decimal numeral or by one of its names, in any letter case and with
white space around it. Two spellings with a hyphen between them are the range of the code points from
the one to the other, if that is not empty. No other text denotes a code point.
-/
namespace QosControl

namespace Text

/-- Whether a text is a numeral, which may have a plus sign and leading zeros. -/
def IsNumeral (cs : List Char) (n : Nat) : Prop :=
  ∃ ds, ds ≠ [] ∧ (∀ c ∈ ds, c.isDigit = true) ∧ digitsValue ds = n ∧ (cs = ds ∨ cs = '+' :: ds)

theorem dropPlus_of_head {cs : List Char} (h : ∀ c ∈ cs.head?, c ≠ '+') : dropPlus cs = cs := by
  unfold dropPlus
  split
  · exact absurd rfl (h '+' rfl)
  · rfl

theorem readUpTo_eq_some_iff {bound n : Nat} {cs : List Char} :
    readUpTo bound cs = some n ↔ IsNumeral cs n ∧ n ≤ bound := by
  rw [readUpTo, Option.ite_none_right_eq_some, List.all_eq_true]
  constructor
  · rintro ⟨⟨hne, hdigits, hbound⟩, heq⟩
    cases heq
    refine ⟨⟨dropPlus cs, hne, hdigits, rfl, ?_⟩, hbound⟩
    unfold dropPlus
    split
    · exact .inr rfl
    · exact .inl rfl
  · rintro ⟨⟨ds, hne, hdigits, hvalue, hcs⟩, hbound⟩
    have hdrop : dropPlus cs = ds := by
      rcases hcs with rfl | rfl
      · refine dropPlus_of_head fun c hc => ?_
        rintro rfl
        exact absurd (hdigits '+' (List.mem_of_mem_head? hc)) (by decide)
      · rfl
    rw [hdrop, hvalue]
    exact ⟨⟨hne, hdigits, hbound⟩, rfl⟩

theorem isDigit_of_mem_numeral {cs : List Char} {n : Nat} (h : IsNumeral cs n) {c : Char} (hc : c ∈ cs) :
    c.isDigit = true ∨ c = '+' := by
  obtain ⟨ds, -, hdigits, -, rfl | rfl⟩ := h
  · exact .inl (hdigits c hc)
  · exact (List.mem_cons.mp hc).symm.imp_left (hdigits c)

end Text

namespace CodePoint
open Text

variable {cs xs ys : List Char} {a b n : Nat}

/-- Whether a text is a name of a code point, but for its letter case. -/
def IsName (cs : List Char) (n : Nat) : Prop := ∃ p ∈ codePointNames, lowerAscii cs = p.1.toList ∧ p.2 = n

/-- Whether a text is a numeral or a name of a code point with white space around it. -/
def Spells (cs : List Char) (n : Nat) : Prop :=
  n ≤ maxCodePoint ∧ ∃ before core after, Blanks before ∧ Blanks after ∧ cs = before ++ core ++ after ∧
    (IsNumeral core n ∨ IsName core n)

/-- Names are of small letters and digits, and a letter is first. -/
theorem names_wellFormed : ∀ p ∈ codePointNames, p.2 ≤ maxCodePoint ∧ p.1.toList ≠ [] ∧
    (p.1.toList.head?.all fun c => 97 ≤ c.toNat) = true ∧
    (p.1.toList.all fun c => 48 ≤ c.toNat ∧ c.toNat ≤ 122) = true := by
  decide

theorem lookupName_eq_some_iff : lookupName codePointNames cs = some n ↔ IsName cs n := by
  rw [lookupName, Option.map_eq_some_iff]
  constructor
  · rintro ⟨p, hp, hn⟩
    have hname := List.find?_some hp
    exact ⟨p, List.mem_of_find?_eq_some hp, (of_decide_eq_true hname).symm, hn⟩
  · rintro ⟨p, hp, hname, hn⟩
    have hsome : (codePointNames.find? fun q => q.1.toList = lowerAscii cs).isSome :=
      List.find?_isSome.mpr ⟨p, hp, decide_eq_true hname.symm⟩
    obtain ⟨q, hq⟩ := Option.isSome_iff_exists.mp hsome
    have hsame : q.1.toList = lowerAscii cs := by simpa using List.find?_some hq
    have hnodup : (codePointNames.map fun p => p.1.toList).Nodup := by decide
    cases List.inj_on_of_nodup_map hnodup (List.mem_of_find?_eq_some hq) hp (hsame.trans hname)
    exact ⟨p, hq, hn⟩

theorem toNat_of_mem_name (h : IsName cs n) {c : Char} (hc : c ∈ cs) : 48 ≤ c.toNat ∧ c.toNat ≤ 122 := by
  obtain ⟨p, hp, hname, -⟩ := h
  have hlower : c.toLower ∈ p.1.toList := by
    rw [← hname]
    exact List.mem_map_of_mem hc
  have hrange := of_decide_eq_true (List.all_eq_true.mp (names_wellFormed p hp).2.2.2 _ hlower)
  rcases toLower_eq_self_or c with heq | hupper
  · rwa [heq] at hrange
  · omega

/-- A name is no numeral, since a letter is first in it. -/
theorem not_isNumeral_of_isName {m : Nat} (h : IsName cs n) : ¬ IsNumeral cs m := by
  intro hnumeral
  obtain ⟨p, hp, hname, -⟩ := h
  obtain ⟨-, hne, hletter, -⟩ := names_wellFormed p hp
  cases cs with
  | nil => exact hne hname.symm
  | cons c cs =>
    have hfirst : 97 ≤ c.toLower.toNat := by
      rw [← hname] at hletter
      exact of_decide_eq_true hletter
    have hlow : 65 ≤ c.toNat := by
      rcases toLower_eq_self_or c with heq | hupper
      · rw [heq] at hfirst
        omega
      · exact hupper.1
    rcases isDigit_of_mem_numeral hnumeral List.mem_cons_self with hdigit | rfl
    · rw [isDigit_iff_toNat] at hdigit
      omega
    · exact absurd hlow (by decide)

theorem toNat_of_mem_core (h : IsNumeral cs n ∨ IsName cs n) {c : Char} (hc : c ∈ cs) :
    c = '+' ∨ 48 ≤ c.toNat ∧ c.toNat ≤ 122 := by
  rcases h with hnumeral | hname
  · rcases isDigit_of_mem_numeral hnumeral hc with hdigit | hplus
    · obtain ⟨hlow, hhigh⟩ := isDigit_iff_toNat.mp hdigit
      exact .inr ⟨hlow, by omega⟩
    · exact .inl hplus
  · exact .inr (toNat_of_mem_name hname hc)

theorem trim_core (h : IsNumeral cs n ∨ IsName cs n) : trim cs = cs := by
  refine trim_of_forall fun c hc => ?_
  rcases toNat_of_mem_core h hc with rfl | ⟨hlow, hhigh⟩
  · decide
  · exact isBlank_eq_false_of_toNat (by omega) (by omega)

theorem codePoint?_eq_some_iff : codePoint? cs = some n ↔ Spells cs n := by
  rw [codePoint?]
  constructor
  · intro h
    obtain ⟨before, after, hbefore, hafter, hcs⟩ := exists_eq_append_trim cs
    split at h
    next k hread =>
      rw [Option.ite_none_right_eq_some] at h
      obtain ⟨hle, heq⟩ := h
      cases heq
      exact ⟨hle, before, trim cs, after, hbefore, hafter, hcs, .inl (readUpTo_eq_some_iff.mp hread).1⟩
    next =>
      have hname := lookupName_eq_some_iff.mp h
      obtain ⟨p, hp, -, heq⟩ := id hname
      cases heq
      exact ⟨(names_wellFormed p hp).1, before, trim cs, after, hbefore, hafter, hcs, .inr hname⟩
  · rintro ⟨hle, before, core, after, hbefore, hafter, rfl, hcore⟩
    rw [trim_append_of_blanks hbefore hafter, trim_core hcore]
    rcases hcore with hnumeral | hname
    · have hbyte : n ≤ wordMax 8 := hle.trans (by decide)
      simp only [readByte, readUpTo_eq_some_iff.mpr ⟨hnumeral, hbyte⟩, if_pos hle]
    · have hread : readByte core = none := by
        rw [Option.eq_none_iff_forall_ne_some]
        intro m hm
        exact not_isNumeral_of_isName hname (readUpTo_eq_some_iff.mp hm).1
      rw [hread]
      exact lookupName_eq_some_iff.mpr hname

theorem hyphen_not_mem (h : Spells cs n) : '-' ∉ cs := by
  obtain ⟨-, before, core, after, hbefore, hafter, rfl, hcore⟩ := h
  have hblank : ∀ {l : List Char}, Blanks l → '-' ∉ l := fun hl hc => absurd (hl '-' hc) (by decide)
  rw [List.mem_append, List.mem_append, not_or, not_or]
  refine ⟨⟨hblank hbefore, fun hc => ?_⟩, hblank hafter⟩
  rcases toNat_of_mem_core hcore hc with heq | hrange
  · exact absurd heq (by decide)
  · exact absurd hrange (by decide)

/-- Whether a text denotes a code point: as the only one or as one of a range. -/
def Denotes (cs : List Char) (n : Nat) : Prop :=
  Spells cs n ∨ ∃ xs ys a b, cs = xs ++ '-' :: ys ∧ Spells xs a ∧ Spells ys b ∧ a ≤ n ∧ n ≤ b

theorem Denotes.le (h : Denotes cs n) : n ≤ maxCodePoint := by
  rcases h with h | ⟨_, _, _, b, -, -, h, -, hn⟩
  · exact h.1
  · exact hn.trans h.1

theorem splitHyphen_append (h : '-' ∉ xs) : splitHyphen (xs ++ '-' :: ys) = some (xs, ys) := by
  have hpos : ∀ c ∈ xs, decide (c ≠ '-') = true := fun c hc => decide_eq_true fun heq => h (heq ▸ hc)
  rw [splitHyphen, List.dropWhile_append_of_pos hpos, List.takeWhile_append_of_pos hpos]
  simp

theorem splitHyphen_eq_none (h : '-' ∉ cs) : splitHyphen cs = none := by
  have hnil : cs.dropWhile (· ≠ '-') = [] :=
    List.dropWhile_eq_nil_iff.mpr fun c hc => decide_eq_true fun heq => h (heq ▸ hc)
  rw [splitHyphen, hnil]

theorem denotes_iff_spells (h : '-' ∉ cs) : Denotes cs n ↔ Spells cs n := by
  refine ⟨fun hdenotes => hdenotes.resolve_right ?_, .inl⟩
  rintro ⟨xs, ys, a, b, rfl, -⟩
  exact h (List.mem_append_right _ List.mem_cons_self)

/-- A range has one low end and one high end, since neither has a hyphen. -/
theorem denotes_append_iff (h : '-' ∉ xs) :
    Denotes (xs ++ '-' :: ys) n ↔ ∃ a b, Spells xs a ∧ Spells ys b ∧ a ≤ n ∧ n ≤ b := by
  constructor
  · rintro (hspells | ⟨xs', ys', a, b, heq, hlow, hhigh, hn⟩)
    · exact absurd (List.mem_append_right _ List.mem_cons_self) (hyphen_not_mem hspells)
    · have hsplit : splitHyphen (xs ++ '-' :: ys) = some (xs, ys) := splitHyphen_append h
      rw [heq, splitHyphen_append (hyphen_not_mem hlow)] at hsplit
      cases hsplit
      exact ⟨a, b, hlow, hhigh, hn⟩
  · rintro ⟨a, b, hlow, hhigh, hn⟩
    exact .inr ⟨xs, ys, a, b, rfl, hlow, hhigh, hn⟩

theorem mem_codePointsFromTo : n ∈ codePointsFromTo a b ↔ a ≤ n ∧ n ≤ b := by
  rw [codePointsFromTo, List.mem_range'_1]
  omega

theorem codePoints?_range (hlow : Spells xs a) (hhigh : Spells ys b) :
    codePoints? (String.ofList (xs ++ '-' :: ys)) = if a ≤ b then some (codePointsFromTo a b) else none := by
  rw [codePoints?, String.toList_ofList, splitHyphen_append (hyphen_not_mem hlow)]
  simp only [codePoint?_eq_some_iff.mpr hlow, codePoint?_eq_some_iff.mpr hhigh, Option.bind_eq_bind, Option.bind_some]

theorem mem_codePoints?_iff {s : String} : n ∈ (codePoints? s).getD [] ↔ Denotes s.toList n := by
  have hgetD : n ∈ (codePoints? s).getD [] ↔ ∃ ns, codePoints? s = some ns ∧ n ∈ ns := by
    cases codePoints? s <;> simp
  rw [hgetD, codePoints?]
  by_cases hhyphen : '-' ∈ s.toList
  · obtain ⟨xs, ys, heq, hxs⟩ := List.eq_append_cons_of_mem hhyphen
    rw [heq, splitHyphen_append hxs, denotes_append_iff hxs]
    simp only [Option.bind_eq_bind, Option.bind_eq_some_iff, Option.ite_none_right_eq_some, codePoint?_eq_some_iff]
    constructor
    · rintro ⟨_, ⟨a, hlow, b, hhigh, -, heq⟩, hn⟩
      cases heq
      exact ⟨a, b, hlow, hhigh, mem_codePointsFromTo.mp hn⟩
    · rintro ⟨a, b, hlow, hhigh, hn⟩
      exact ⟨_, ⟨a, hlow, b, hhigh, hn.1.trans hn.2, rfl⟩, mem_codePointsFromTo.mpr hn⟩
  · rw [splitHyphen_eq_none hhyphen, denotes_iff_spells hhyphen]
    simp only [Option.map_eq_some_iff, codePoint?_eq_some_iff]
    constructor
    · rintro ⟨_, ⟨m, hspells, rfl⟩, hn⟩
      rwa [List.mem_singleton.mp hn]
    · intro hspells
      exact ⟨[n], ⟨n, hspells, rfl⟩, List.mem_singleton_self n⟩

example : codePoints? " CS2 -\t+026" = some [16, 17, 18, 19, 20, 21, 22, 23, 24, 25, 26] ∧
    codePoints? "ef-cs1" = none ∧ codePoints? "64" = none := by decide

end CodePoint
end QosControl
