import Mathlib.Data.List.TakeWhile
import QosControl.Field

/-! # Texts of numbers

White space around a text does not count. The text of an integer of one word is read back as that
integer. The text of any other number is not read as a word, since it has a sign, a point or an
exponent. Every text of a number has a digit, so none of them is a keyword.
-/
namespace QosControl

namespace Text

theorem isDigit_iff_toNat {c : Char} : c.isDigit = true ↔ 48 ≤ c.toNat ∧ c.toNat ≤ 57 := by
  rw [Char.isDigit, Bool.and_eq_true, decide_eq_true_eq, decide_eq_true_eq]
  exact and_congr UInt32.le_iff_toNat_le UInt32.le_iff_toNat_le

theorem isBlank_iff {c : Char} : isBlank c = true ↔ ∃ r ∈ blankRanges, r.1 ≤ c.toNat ∧ c.toNat ≤ r.2 := by
  simp [isBlank, List.any_eq_true]

theorem isBlank_eq_false_of_toNat {c : Char} (hlow : 33 ≤ c.toNat) (hhigh : c.toNat ≤ 126) : isBlank c = false := by
  rw [← Bool.not_eq_true, isBlank_iff]
  rintro ⟨r, hr, hrange⟩
  have hranges : ∀ r ∈ blankRanges, r.2 < 33 ∨ 126 < r.1 := by decide
  have hout := hranges r hr
  omega

theorem isBlank_eq_false_of_isDigit {c : Char} (h : c.isDigit = true) : isBlank c = false := by
  obtain ⟨hlow, hhigh⟩ := isDigit_iff_toNat.mp h
  exact isBlank_eq_false_of_toNat (by omega) (by omega)

/-- Only capital letters are lowered. -/
theorem toLower_eq_self_or (c : Char) : c.toLower = c ∨ 65 ≤ c.toNat ∧ c.toNat ≤ 90 := by
  by_cases h : c.val ≥ 'A'.val ∧ c.val ≤ 'Z'.val
  · exact .inr ⟨UInt32.le_iff_toNat_le.mp h.1, UInt32.le_iff_toNat_le.mp h.2⟩
  · exact .inl (dif_neg h)

theorem dropWhile_isBlank_of_forall {cs : List Char} (h : ∀ c ∈ cs, isBlank c = false) :
    cs.dropWhile isBlank = cs := by
  cases cs with
  | nil => rfl
  | cons c cs => rw [List.dropWhile_cons_of_neg (by simp [h c List.mem_cons_self])]

theorem trim_of_forall {cs : List Char} (h : ∀ c ∈ cs, isBlank c = false) : trim cs = cs := by
  have hreverse : ∀ c ∈ cs.reverse, isBlank c = false := by
    intro c hc
    exact h c (List.mem_reverse.mp hc)
  rw [trim, trimLeft, dropWhile_isBlank_of_forall h, trimRight, dropWhile_isBlank_of_forall hreverse,
    List.reverse_reverse]

theorem mem_dropWhile_isBlank {c : Char} {cs : List Char} (hc : c ∈ cs) (hblank : isBlank c = false) :
    c ∈ cs.dropWhile isBlank := by
  rw [← List.takeWhile_append_dropWhile (p := isBlank) (l := cs), List.mem_append] at hc
  rcases hc with hc | hc
  · have htrue := List.mem_takeWhile_imp hc
    rw [hblank] at htrue
    cases htrue
  · exact hc

theorem mem_trim {c : Char} {cs : List Char} (hc : c ∈ cs) (hblank : isBlank c = false) : c ∈ trim cs := by
  have hleft : c ∈ trimLeft cs := mem_dropWhile_isBlank hc hblank
  rw [trim, trimRight, List.mem_reverse]
  exact mem_dropWhile_isBlank (List.mem_reverse.mpr hleft) hblank

/-- Whether a text is white space, or nothing. -/
def Blanks (cs : List Char) : Prop := ∀ c ∈ cs, isBlank c = true

theorem dropWhile_isBlank_of_blanks {cs : List Char} (h : Blanks cs) : cs.dropWhile isBlank = [] :=
  List.dropWhile_eq_nil_iff.mpr h

/-- White space around a text is dropped. -/
theorem trim_append_of_blanks {l r : List Char} (hl : Blanks l) (hr : Blanks r) (cs : List Char) :
    trim (l ++ cs ++ r) = trim cs := by
  have hreverse : Blanks r.reverse := fun c hc => hr c (List.mem_reverse.mp hc)
  rw [trim, trim, List.append_assoc, trimLeft, List.dropWhile_append_of_pos hl, List.dropWhile_append, trimLeft]
  split
  next hnil =>
    rw [dropWhile_isBlank_of_blanks hr, List.isEmpty_iff.mp hnil]
  next => rw [trimRight, trimRight, List.reverse_append, List.dropWhile_append_of_pos hreverse]

theorem exists_eq_append_trim (cs : List Char) : ∃ l r, Blanks l ∧ Blanks r ∧ cs = l ++ trim cs ++ r := by
  refine ⟨cs.takeWhile isBlank, ((trimLeft cs).reverse.takeWhile isBlank).reverse, fun c hc =>
    List.mem_takeWhile_imp hc, fun c hc => List.mem_takeWhile_imp (List.mem_reverse.mp hc), ?_⟩
  have hright : trim cs ++ ((trimLeft cs).reverse.takeWhile isBlank).reverse = trimLeft cs := by
    rw [trim, trimRight, ← List.reverse_append, List.takeWhile_append_dropWhile, List.reverse_reverse]
  rw [List.append_assoc, hright, trimLeft, List.takeWhile_append_dropWhile]

/-- A text is kept as a whole if neither end of it is white space. -/
theorem trim_of_ends {a b : List Char} (ha : a ≠ [] ∧ ∀ c ∈ a, isBlank c = false)
    (hb : b ≠ [] ∧ ∀ c ∈ b, isBlank c = false) (mid : List Char) : trim (a ++ mid ++ b) = a ++ mid ++ b := by
  have hdrop : ∀ {xs ys : List Char}, xs ≠ [] → (∀ c ∈ xs, isBlank c = false) →
      (xs ++ ys).dropWhile isBlank = xs ++ ys := by
    intro xs ys hne h
    obtain ⟨x, xs, rfl⟩ := List.exists_cons_of_ne_nil hne
    exact List.dropWhile_cons_of_neg (by simp [h x List.mem_cons_self])
  have hleft : trimLeft (a ++ mid ++ b) = a ++ mid ++ b := by
    rw [trimLeft, List.append_assoc, hdrop ha.1 ha.2]
  rw [trim, hleft, trimRight, List.reverse_append, hdrop (by simpa using hb.1) fun c hc => hb.2 c (by simpa using hc),
    ← List.reverse_append, List.reverse_reverse]

theorem readWord_trim_toDigits {n : Nat} (h : n ≤ wordMax 64) :
    readWord (trim (Nat.toDigits 10 n)) = some n := by
  have hdigits : ∀ c ∈ Nat.toDigits 10 n, isBlank c = false := by
    intro c hc
    exact isBlank_eq_false_of_isDigit (Nat.isDigit_of_mem_toDigits (by decide) (by decide) hc)
  rw [trim_of_forall hdigits]
  exact readUpTo_toDigits h

/-- Marks that no numeral of a word has. -/
def wordless : List Char := ['-', '.', 'e']

theorem readWord_trim_eq_none {c : Char} {cs : List Char} (hc : c ∈ cs) (hmark : c ∈ wordless) :
    readWord (trim cs) = none := by
  have hfacts : ∀ c ∈ wordless, isBlank c = false ∧ c ≠ '+' ∧ c.isDigit = false := by
    rw [wordless, List.forall_mem_cons, List.forall_mem_cons, List.forall_mem_singleton]
    decide
  obtain ⟨hblank, hplus, hdigit⟩ := hfacts c hmark
  have htrim := mem_trim hc hblank
  have hdrop : c ∈ dropPlus (trim cs) := by
    unfold dropPlus
    split
    next rest heq =>
      rw [heq] at htrim
      exact (List.mem_cons.mp htrim).resolve_left hplus
    next => exact htrim
  have hnot : ¬ (dropPlus (trim cs)).all Char.isDigit = true := by
    intro hall
    have htrue := List.all_eq_true.mp hall c hdrop
    rw [hdigit] at htrue
    cases htrue
  simp [readWord, readUpTo, hnot]

theorem exists_isDigit_mem_toDigits (n : Nat) : ∃ c ∈ Nat.toDigits 10 n, c.isDigit = true := by
  obtain ⟨c, hc⟩ := List.exists_mem_of_ne_nil _ (Nat.toDigits_ne_nil (b := 10) (n := n))
  exact ⟨c, hc, Nat.isDigit_of_mem_toDigits (by decide) (by decide) hc⟩

end Text

namespace Binary64
open Text

theorem Decimal.exists_wordless_mem_text (d : Decimal) : ∃ c ∈ d.text, c ∈ wordless := by
  unfold text
  simp only
  split_ifs with h₁ h₂ h₃ h₄
  · exact ⟨'.', by simp, by decide⟩
  · exact ⟨'.', by simp, by decide⟩
  · exact ⟨'.', by simp, by decide⟩
  all_goals exact ⟨'e', by simp, by decide⟩

theorem Decimal.exists_isDigit_mem_text (d : Decimal) : ∃ c ∈ d.text, c.isDigit = true := by
  obtain ⟨c, hc, hdigit⟩ := exists_isDigit_mem_toDigits d.digits
  unfold text
  simp only
  split_ifs with h₁ h₂ h₃
  · exact ⟨c, by simp [hc], hdigit⟩
  · refine ⟨c, ?_, hdigit⟩
    rw [← List.take_append_drop ((Nat.toDigits 10 d.digits).length + d.exponent).toNat (Nat.toDigits 10 d.digits),
      List.mem_append] at hc
    rw [List.mem_append, List.mem_cons]
    exact hc.imp_right .inr
  · exact ⟨'0', by simp, by decide⟩
  all_goals
    obtain ⟨c, hc, hdigit⟩ :=
      exists_isDigit_mem_toDigits ((Nat.toDigits 10 d.digits).length + d.exponent - 1).natAbs
    exact ⟨c, List.mem_append_right _ hc, hdigit⟩

theorem exists_wordless_mem_text (x : Binary64) : ∃ c ∈ x.text, c ∈ wordless := by
  have hunsigned : ∃ c ∈ (if x.units = 0 then ['0', '.', '0'] else x.shortest.trimmed.text), c ∈ wordless := by
    split
    · exact ⟨'.', by simp, by decide⟩
    · exact Decimal.exists_wordless_mem_text _
  obtain ⟨c, hc, hmark⟩ := hunsigned
  unfold text
  simp only
  split
  · exact ⟨c, List.mem_cons_of_mem _ hc, hmark⟩
  · exact ⟨c, hc, hmark⟩

theorem exists_isDigit_mem_text (x : Binary64) : ∃ c ∈ x.text, c.isDigit = true := by
  have hunsigned : ∃ c ∈ (if x.units = 0 then ['0', '.', '0'] else x.shortest.trimmed.text), c.isDigit = true := by
    split
    · exact ⟨'0', by simp, by decide⟩
    · exact Decimal.exists_isDigit_mem_text _
  obtain ⟨c, hc, hdigit⟩ := hunsigned
  unfold text
  simp only
  split
  · exact ⟨c, List.mem_cons_of_mem _ hc, hdigit⟩
  · exact ⟨c, hc, hdigit⟩

end Binary64

namespace Json
open Text

/-- The word that a number is, if it is one. -/
def Number.word? : Number → Option Nat
  | .natural n => some n.toNat
  | _ => none

namespace Number

theorem readWord_text (n : Number) : readWord (trim n.text.toList) = n.word? := by
  cases n with
  | natural n =>
    have hbound : n.toNat ≤ wordMax 64 := Nat.le_of_lt_succ n.toNat_lt
    rw [text, decimal, String.toList_ofList]
    exact readWord_trim_toDigits hbound
  | negative n => exact readWord_trim_eq_none (c := '-') (by simp [text]) (by decide)
  | double x =>
    obtain ⟨c, hc, hmark⟩ := x.exists_wordless_mem_text
    exact readWord_trim_eq_none (c := c) (by simpa [text] using hc) hmark

theorem exists_isDigit_mem_text (n : Number) : ∃ c ∈ n.text.toList, c.isDigit = true := by
  cases n with
  | natural n =>
    obtain ⟨c, hc, hdigit⟩ := exists_isDigit_mem_toDigits n.toNat
    exact ⟨c, by simpa [text, decimal] using hc, hdigit⟩
  | negative n =>
    obtain ⟨c, hc, hdigit⟩ := exists_isDigit_mem_toDigits (n + 1)
    exact ⟨c, by simp [text, decimal, hc], hdigit⟩
  | double x =>
    obtain ⟨c, hc, hdigit⟩ := x.exists_isDigit_mem_text
    exact ⟨c, by simpa [text] using hc, hdigit⟩

/-- A text without digits is not that of a number. -/
theorem text_ne {s : String} (h : s.toList.any Char.isDigit = false) (n : Number) : n.text ≠ s := by
  rintro rfl
  obtain ⟨c, hc, hdigit⟩ := n.exists_isDigit_mem_text
  rw [List.any_eq_false] at h
  exact h c hc hdigit

end Number
end Json
end QosControl
