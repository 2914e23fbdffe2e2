import Mathlib.Data.List.Basic
import Mathlib.Data.List.Nodup
import QosControl.Proofs.NumberTexts
import QosControl.Rate.Bandwidth

/-! # Texts that are rates

The texts that are read as bandwidths, percentages and packet rates are those of three grammars: white
space, a number of ASCII digits, white space, keywords in any letter case, and white space. A text is
read in one way only, so no text is both a bandwidth and a percentage. Decimal digits of other scripts
have no place in any of them.
-/
namespace QosControl

namespace Text

/-- The zeros of the decimal digits, each of which is followed by its nine other digits. -/
def digitZeros : List Nat :=
  [0x30, 0x660, 0x6f0, 0x7c0, 0x966, 0x9e6, 0xa66, 0xae6, 0xb66, 0xbe6, 0xc66, 0xce6, 0xd66, 0xde6,
   0xe50, 0xed0, 0xf20, 0x1040, 0x1090, 0x17e0, 0x1810, 0x1946, 0x19d0, 0x1a80, 0x1a90, 0x1b50,
   0x1bb0, 0x1c40, 0x1c50, 0xa620, 0xa8d0, 0xa900, 0xa9d0, 0xa9f0, 0xaa50, 0xabf0, 0xff10, 0x104a0,
   0x10d30, 0x10d40, 0x11066, 0x110f0, 0x11136, 0x111d0, 0x112f0, 0x11450, 0x114d0, 0x11650,
   0x116c0, 0x116d0, 0x116da, 0x11730, 0x118e0, 0x11950, 0x11bf0, 0x11c50, 0x11d50, 0x11da0,
   0x11de0, 0x11f50, 0x16130, 0x16a60, 0x16ac0, 0x16b50, 0x16d70, 0x1ccf0, 0x1d7ce, 0x1d7d8,
   0x1d7e2, 0x1d7ec, 0x1d7f6, 0x1e140, 0x1e2f0, 0x1e4f0, 0x1e5f1, 0x1e950, 0x1fbf0]

/-- Whether a character is a decimal digit of any script. -/
def isDecimal (c : Char) : Bool := digitZeros.any fun z => z ≤ c.toNat && c.toNat < z + 10

/-- Whether a character is a small letter, but for its letter case. -/
def IsLetter (c : Char) : Prop := 97 ≤ (foldChar c).toNat ∧ (foldChar c).toNat ≤ 122

theorem toNat_of_isLetter {c : Char} (h : IsLetter c) :
    c = kelvinSign ∨ c = longS ∨ 65 ≤ c.toNat ∧ c.toNat ≤ 122 := by
  rw [IsLetter, foldChar] at h
  split at h
  next hk => exact .inl hk
  next =>
    split at h
    next hs => exact .inr (.inl hs)
    next =>
      rcases toLower_eq_self_or c with heq | hupper
      · rw [heq] at h
        exact .inr (.inr ⟨by omega, h.2⟩)
      · exact .inr (.inr ⟨hupper.1, by omega⟩)

theorem isBlank_eq_false_of_isLetter {c : Char} (h : IsLetter c) : isBlank c = false := by
  rcases toNat_of_isLetter h with rfl | rfl | ⟨hlow, hhigh⟩
  · decide
  · decide
  · exact isBlank_eq_false_of_toNat (by omega) (by omega)

theorem isDigit_eq_false_of_isLetter {c : Char} (h : IsLetter c) : c.isDigit = false ∧ c ≠ '.' := by
  rcases toNat_of_isLetter h with rfl | rfl | ⟨hlow, hhigh⟩
  · decide
  · decide
  · refine ⟨?_, ?_⟩
    · rw [← Bool.not_eq_true, isDigit_iff_toNat]
      omega
    · rintro rfl
      exact absurd hlow (by decide)

theorem isDigit_eq_false_of_isBlank {c : Char} (h : isBlank c = true) : c.isDigit = false ∧ c ≠ '.' := by
  constructor
  · rw [← Bool.not_eq_true]
    intro hdigit
    rw [isBlank_eq_false_of_isDigit hdigit] at h
    cases h
  · rintro rfl
    exact absurd h (by decide)

/-- No white space is a digit, and no letter that may stand in a keyword. -/
theorem isDigit_of_isDecimal {c : Char} (h : isDecimal c = true)
    (hplain : isBlank c = true ∨ c.toNat < 128 ∨ IsLetter c) : c.isDigit = true := by
  obtain ⟨z, hz, hrange⟩ := List.any_eq_true.mp h
  rw [Bool.and_eq_true, decide_eq_true_eq, decide_eq_true_eq] at hrange
  have hsmall : c.toNat < 128 := by
    rcases hplain with hblank | hsmall | hletter
    · obtain ⟨r, hr, hlow, hhigh⟩ := isBlank_iff.mp hblank
      have hapart : ∀ z ∈ digitZeros, ∀ r ∈ blankRanges, r.2 < z ∨ z + 10 ≤ r.1 := by decide
      have hout := hapart z hz r hr
      omega
    · exact hsmall
    · rcases toNat_of_isLetter hletter with rfl | rfl | hascii
      · exact absurd h (by decide)
      · exact absurd h (by decide)
      · omega
  have hfirst : ∀ z ∈ digitZeros, z = 48 ∨ 128 ≤ z := by decide
  rw [isDigit_iff_toNat]
  rcases hfirst z hz with rfl | hlarge <;> omega

end Text

namespace Rate
open Text

namespace Amount

/-- The text of a number: its digits, and a point before those of its fraction if it has any. -/
def text (a : Amount) : List Char := a.whole ++ if a.fraction = [] then [] else '.' :: a.fraction

/-- Whether a number has ASCII digits only, of which some stand before the point. -/
structure WellFormed (a : Amount) : Prop where
  whole_ne_nil : a.whole ≠ []
  whole : ∀ c ∈ a.whole, c.isDigit = true
  fraction : ∀ c ∈ a.fraction, c.isDigit = true

/-- Whether a text is white space, a number, white space, a suffix and white space. -/
def Spaced (s : String) (a : Amount) (suffix : List Char) : Prop :=
  a.WellFormed ∧ ∃ before between after, Blanks before ∧ Blanks between ∧ Blanks after ∧
    s.toList = before ++ (a.text ++ between ++ suffix) ++ after

variable {a : Amount}

theorem mem_text {c : Char} (h : a.WellFormed) (hc : c ∈ a.text) : c.isDigit = true ∨ c = '.' := by
  rw [text, List.mem_append] at hc
  rcases hc with hc | hc
  · exact .inl (h.whole c hc)
  · split at hc
    · cases hc
    · rcases List.mem_cons.mp hc with rfl | hc
      · exact .inr rfl
      · exact .inl (h.fraction c hc)

theorem isBlank_of_mem_text {c : Char} (h : a.WellFormed) (hc : c ∈ a.text) : isBlank c = false := by
  rcases mem_text h hc with hdigit | rfl
  · exact isBlank_eq_false_of_isDigit hdigit
  · decide

theorem text_ne_nil (h : a.WellFormed) : a.text ≠ [] := List.append_ne_nil_of_left_ne_nil h.whole_ne_nil _

theorem read?_sound {cs rest : List Char} (h : read? cs = some (a, rest)) :
    a.WellFormed ∧ cs = a.text ++ rest := by
  have hdigits : ∀ ds : List Char, ∀ c ∈ ds.takeWhile Char.isDigit, c.isDigit = true :=
    fun ds c hc => List.mem_takeWhile_imp hc
  have hwhole := List.takeWhile_append_dropWhile (p := Char.isDigit) (l := cs)
  simp only [read?] at h
  split at h
  next => cases h
  next hne =>
    split at h
    next r hrest =>
      split at h
      next =>
        cases h
        refine ⟨⟨hne, hdigits cs, nofun⟩, ?_⟩
        rw [text, if_pos rfl, List.append_nil]
        exact hwhole.symm
      next hfraction =>
        cases h
        refine ⟨⟨hne, hdigits cs, hdigits r⟩, ?_⟩
        rw [text, if_neg hfraction, List.append_assoc, List.cons_append, List.takeWhile_append_dropWhile,
          ← hrest]
        exact hwhole.symm
    next =>
      cases h
      refine ⟨⟨hne, hdigits cs, nofun⟩, ?_⟩
      rw [text, if_pos rfl, List.append_nil]
      exact hwhole.symm

theorem span_isDigit_append {ds tail : List Char} (hds : ∀ c ∈ ds, c.isDigit = true)
    (htail : ∀ c ∈ tail.head?, c.isDigit = false) :
    (ds ++ tail).takeWhile Char.isDigit = ds ∧ (ds ++ tail).dropWhile Char.isDigit = tail := by
  rw [List.takeWhile_append_of_pos hds, List.dropWhile_append_of_pos hds]
  cases tail with
  | nil => simp
  | cons c tail => simp [htail c rfl]

/-- A number is read as far as it goes, if neither a digit nor a point follows it. -/
theorem read?_complete (h : a.WellFormed) {rest : List Char}
    (hrest : ∀ c ∈ rest.head?, c.isDigit = false ∧ c ≠ '.') : read? (a.text ++ rest) = some (a, rest) := by
  obtain ⟨whole, fraction⟩ := a
  by_cases hfraction : fraction = []
  · subst hfraction
    obtain ⟨htake, hdrop⟩ := span_isDigit_append h.whole fun c hc => (hrest c hc).1
    simp only [text, read?, if_true, List.append_nil, htake, hdrop, if_neg h.whole_ne_nil]
    split
    next r => exact absurd rfl (hrest '.' rfl).2
    next => rfl
  · have hpoint : ∀ c ∈ ('.' :: (fraction ++ rest)).head?, c.isDigit = false := by
      intro c hc
      cases hc
      rfl
    obtain ⟨htake, hdrop⟩ := span_isDigit_append h.whole hpoint
    obtain ⟨htake', hdrop'⟩ := span_isDigit_append h.fraction fun c hc => (hrest c hc).1
    simp only [text, if_neg hfraction, List.append_assoc, List.cons_append, read?, htake, hdrop,
      if_neg h.whole_ne_nil, htake', hdrop']

theorem readWithSuffix?_sound {s : String} {suffix : List Char} (h : readWithSuffix? s = some (a, suffix)) :
    Spaced s a suffix := by
  obtain ⟨⟨b, rest⟩, hread, heq⟩ := Option.map_eq_some_iff.mp h
  cases heq
  obtain ⟨hwell, htrim⟩ := read?_sound hread
  obtain ⟨before, after, hbefore, hafter, hs⟩ := exists_eq_append_trim s.toList
  refine ⟨hwell, before, rest.takeWhile isBlank, after, hbefore, fun c hc => List.mem_takeWhile_imp hc, hafter, ?_⟩
  rw [List.append_assoc a.text, trimLeft, List.takeWhile_append_dropWhile, ← htrim]
  exact hs

/-- A suffix without white space, digits and points is told from the number before it. -/
theorem readWithSuffix?_complete {s : String} {suffix : List Char} (h : Spaced s a suffix)
    (hsuffix : ∀ c ∈ suffix, isBlank c = false ∧ c.isDigit = false ∧ c ≠ '.') :
    readWithSuffix? s = some (a, suffix) := by
  obtain ⟨hwell, before, between, after, hbefore, hbetween, hafter, hs⟩ := h
  have htext := fun c hc => isBlank_of_mem_text (c := c) hwell hc
  rw [readWithSuffix?, hs, trim_append_of_blanks hbefore hafter]
  by_cases hnil : suffix = []
  · -- the white space after the number is dropped with that at the end
    subst hnil
    have htrim := trim_append_of_blanks (l := []) nofun hbetween a.text
    rw [List.nil_append, trim_of_forall htext] at htrim
    have hread : read? (a.text ++ []) = some (a, []) := read?_complete hwell nofun
    rw [List.append_nil] at hread ⊢
    rw [htrim, hread]
    rfl
  · rw [trim_of_ends ⟨text_ne_nil hwell, htext⟩ ⟨hnil, fun c hc => (hsuffix c hc).1⟩, List.append_assoc,
      read?_complete hwell]
    · have hleft : trimLeft (between ++ suffix) = suffix := by
        rw [trimLeft, List.dropWhile_append_of_pos hbetween,
          dropWhile_isBlank_of_forall fun c hc => (hsuffix c hc).1]
      simp only [Option.map_some, hleft]
    · intro c hc
      cases between with
      | nil => exact (hsuffix c (List.mem_of_mem_head? hc)).2
      | cons d ds =>
        cases hc
        exact isDigit_eq_false_of_isBlank (hbetween c List.mem_cons_self)

theorem mem_of_spaced {s : String} {suffix : List Char} (h : Spaced s a suffix) {c : Char} (hc : c ∈ s.toList) :
    isBlank c = true ∨ c.isDigit = true ∨ c = '.' ∨ c ∈ suffix := by
  obtain ⟨hwell, before, between, after, hbefore, hbetween, hafter, hs⟩ := h
  rw [hs, List.mem_append, List.mem_append, List.mem_append, List.mem_append] at hc
  rcases hc with (hc | (hc | hc) | hc) | hc
  · exact .inl (hbefore c hc)
  · exact .inr ((mem_text hwell hc).imp_right .inl)
  · exact .inl (hbetween c hc)
  · exact .inr (.inr (.inr hc))
  · exact .inl (hafter c hc)

end Amount

/-- Whether a table's keywords are of letters and can be told apart. -/
structure Separable (table : List (List Char × List Char)) : Prop where
  nodup : (table.map fun p => p.1 ++ p.2).Nodup
  letters : ∀ p ∈ table, ((p.1 ++ p.2).all fun c => 97 ≤ c.toNat ∧ c.toNat ≤ 122) = true

theorem separable_bandwidthSuffixes : Separable bandwidthSuffixes := ⟨by decide, by decide⟩

theorem separable_packetSuffixes : Separable packetSuffixes := ⟨by decide, by decide⟩

section Split

variable {table : List (List Char × List Char)} {cs m u : List Char}

theorem splitSuffix?_eq_some_iff (h : Separable table) :
    splitSuffix? table cs = some (m, u) ↔ cs = m ++ u ∧ (fold m, fold u) ∈ table := by
  constructor
  · intro hsplit
    obtain ⟨p, hfind, heq⟩ := Option.map_eq_some_iff.mp hsplit
    cases heq
    have hspelled : p.1 ++ p.2 = fold cs := by simpa using List.find?_some hfind
    have hm : fold (cs.take p.1.length) = p.1 := by
      rw [fold, List.map_take, ← fold, ← hspelled, List.take_left]
    have hu : fold (cs.drop p.1.length) = p.2 := by
      rw [fold, List.map_drop, ← fold, ← hspelled, List.drop_left]
    rw [hm, hu]
    exact ⟨(List.take_append_drop _ _).symm, List.mem_of_find?_eq_some hfind⟩
  · rintro ⟨rfl, hmem⟩
    have hfold : fold m ++ fold u = fold (m ++ u) := List.map_append.symm
    have hfind : table.find? (fun p => p.1 ++ p.2 = fold (m ++ u)) = some (fold m, fold u) := by
      have hsome : (table.find? fun p => p.1 ++ p.2 = fold (m ++ u)).isSome :=
        List.find?_isSome.mpr ⟨(fold m, fold u), hmem, decide_eq_true hfold⟩
      obtain ⟨p, hp⟩ := Option.isSome_iff_exists.mp hsome
      have hspelled : p.1 ++ p.2 = fold (m ++ u) := by simpa using List.find?_some hp
      rw [hp, List.inj_on_of_nodup_map h.nodup (List.mem_of_find?_eq_some hp) hmem (hspelled.trans hfold.symm)]
    rw [splitSuffix?, hfind, Option.map_some]
    simp [fold]

theorem isLetter_of_mem (h : Separable table) (hmem : (fold m, fold u) ∈ table) {c : Char} (hc : c ∈ m ++ u) :
    IsLetter c := by
  have hfold : foldChar c ∈ fold m ++ fold u := by
    rw [fold, fold, ← List.map_append]
    exact List.mem_map_of_mem hc
  have hrange := List.all_eq_true.mp (h.letters _ hmem) _ hfold
  rw [decide_eq_true_eq] at hrange
  exact hrange

/-- Reading a number and splitting what follows it finds the keywords of a table, however they are spelled. -/
theorem read_split_iff (h : Separable table) {s : String} {a : Amount} :
    (∃ rest, Amount.readWithSuffix? s = some (a, rest) ∧ splitSuffix? table rest = some (m, u)) ↔
      a.Spaced s (m ++ u) ∧ (fold m, fold u) ∈ table := by
  constructor
  · rintro ⟨rest, hread, hsplit⟩
    obtain ⟨rfl, hmem⟩ := (splitSuffix?_eq_some_iff h).mp hsplit
    exact ⟨Amount.readWithSuffix?_sound hread, hmem⟩
  · rintro ⟨hspaced, hmem⟩
    refine ⟨m ++ u, Amount.readWithSuffix?_complete hspaced fun c hc => ?_,
      (splitSuffix?_eq_some_iff h).mpr ⟨rfl, hmem⟩⟩
    have hletter := isLetter_of_mem h hmem hc
    exact ⟨isBlank_eq_false_of_isLetter hletter, isDigit_eq_false_of_isLetter hletter⟩

/-- The keywords of a text are read in one way. -/
theorem spaced_unique (h : Separable table) {s : String} {a a' : Amount} {m' u' : List Char}
    (hs : a.Spaced s (m ++ u) ∧ (fold m, fold u) ∈ table)
    (hs' : a'.Spaced s (m' ++ u') ∧ (fold m', fold u') ∈ table) : a = a' ∧ m = m' ∧ u = u' := by
  obtain ⟨rest, hread, hsplit⟩ := (read_split_iff h).mpr hs
  obtain ⟨rest', hread', hsplit'⟩ := (read_split_iff h).mpr hs'
  cases hread.symm.trans hread'
  cases hsplit.symm.trans hsplit'
  exact ⟨rfl, rfl, rfl⟩

end Split

/-- Whether a text is empty or spells a keyword in any letter case. -/
def MaySpell (keywords : List String) (cs : List Char) : Prop := cs = [] ∨ ∃ k ∈ keywords, fold cs = k.toList

/-- The grammar of bandwidths: a number, an optional multiplier and an optional unit. -/
structure BandwidthText (s : String) (a : Amount) (multiplier unit : List Char) : Prop where
  spaced : a.Spaced s (multiplier ++ unit)
  multiplier : MaySpell ["k", "m", "g", "t", "ki", "mi", "gi", "ti"] multiplier
  unit : MaySpell ["bit", "bps"] unit

/-- The grammar of percentages: a number and its sign. -/
def PercentText (s : String) (a : Amount) : Prop := a.Spaced s ['%']

/-- The grammar of packet rates: a number, and optionally the unit with an optional multiplier. -/
structure PacketText (s : String) (a : Amount) (multiplier unit : List Char) : Prop where
  spaced : a.Spaced s (multiplier ++ unit)
  suffix : multiplier = [] ∧ unit = [] ∨ MaySpell ["k", "m"] multiplier ∧ fold unit = "pps".toList

variable {s : String} {a : Amount} {m u : List Char}

theorem fold_eq_nil {cs : List Char} : fold cs = [] ↔ cs = [] := List.map_eq_nil_iff

theorem maySpell_iff {keywords : List String} {cs : List Char} :
    MaySpell keywords cs ↔ ∃ k ∈ "" :: keywords, k.toList = fold cs := by
  rw [List.exists_mem_cons_iff, MaySpell, ← fold_eq_nil]
  exact or_congr eq_comm (exists_congr fun k => and_congr_right fun _ => eq_comm)

theorem mem_suffixes {first second : List String} : (fold m, fold u) ∈ suffixes first second ↔
    MaySpell first m ∧ MaySpell second u := by
  simp only [suffixes, List.mem_flatMap, List.mem_map, Prod.mk.injEq, maySpell_iff]
  constructor
  · rintro ⟨x, hx, y, hy, hfirst, hsecond⟩
    exact ⟨⟨x, hx, hfirst⟩, y, hy, hsecond⟩
  · rintro ⟨⟨x, hx, hfirst⟩, y, hy, hsecond⟩
    exact ⟨x, hx, y, hy, hfirst, hsecond⟩

theorem bandwidthText_iff :
    BandwidthText s a m u ↔ a.Spaced s (m ++ u) ∧ (fold m, fold u) ∈ bandwidthSuffixes := by
  rw [bandwidthSuffixes, mem_suffixes]
  exact ⟨fun h => ⟨h.spaced, h.multiplier, h.unit⟩, fun h => ⟨h.1, h.2.1, h.2.2⟩⟩

theorem mem_packetSuffixes : (fold m, fold u) ∈ packetSuffixes ↔
    m = [] ∧ u = [] ∨ MaySpell ["k", "m"] m ∧ fold u = "pps".toList := by
  rw [packetSuffixes, List.mem_cons, List.mem_map, Prod.mk.injEq, fold_eq_nil, fold_eq_nil, maySpell_iff]
  refine or_congr_right ?_
  constructor
  · rintro ⟨k, hk, heq⟩
    obtain ⟨hfirst, hsecond⟩ := Prod.mk.inj heq
    exact ⟨⟨k, hk, hfirst⟩, hsecond.symm⟩
  · rintro ⟨⟨k, hk, hfirst⟩, hsecond⟩
    exact ⟨k, hk, Prod.ext hfirst hsecond.symm⟩

theorem packetText_iff :
    PacketText s a m u ↔ a.Spaced s (m ++ u) ∧ (fold m, fold u) ∈ packetSuffixes := by
  rw [mem_packetSuffixes]
  exact ⟨fun h => ⟨h.spaced, h.suffix⟩, fun h => ⟨h.1, h.2⟩⟩

theorem bandwidth?_isSome_iff : (bandwidth? s).isSome ↔ ∃ a m u, BandwidthText s a m u := by
  simp only [bandwidthText_iff, ← read_split_iff separable_bandwidthSuffixes]
  constructor
  · intro h
    obtain ⟨b, hb⟩ := Option.isSome_iff_exists.mp h
    obtain ⟨⟨a, rest⟩, hread, hb⟩ := Option.bind_eq_some_iff.mp hb
    obtain ⟨⟨m, u⟩, hsplit, -⟩ := Option.bind_eq_some_iff.mp hb
    exact ⟨a, m, u, rest, hread, hsplit⟩
  · rintro ⟨a, m, u, rest, hread, hsplit⟩
    simp [bandwidth?, hread, hsplit]

theorem percentText_iff : PercentText s a ↔ Amount.readWithSuffix? s = some (a, ['%']) :=
  ⟨fun h => Amount.readWithSuffix?_complete h (List.forall_mem_singleton.mpr (by decide)),
    Amount.readWithSuffix?_sound⟩

theorem percent?_isSome_iff : (percent? s).isSome ↔ ∃ a, PercentText s a := by
  simp only [percentText_iff]
  constructor
  · intro h
    obtain ⟨x, hx⟩ := Option.isSome_iff_exists.mp h
    obtain ⟨⟨a, rest⟩, hread, hx⟩ := Option.bind_eq_some_iff.mp hx
    simp only [Option.ite_none_right_eq_some] at hx
    exact ⟨a, hx.1 ▸ hread⟩
  · rintro ⟨a, hread⟩
    simp [percent?, hread]

theorem packets?_isSome_iff : (packets? s).isSome ↔ ∃ a m u, PacketText s a m u := by
  simp only [packetText_iff, ← read_split_iff separable_packetSuffixes]
  constructor
  · intro h
    obtain ⟨n, hn⟩ := Option.isSome_iff_exists.mp h
    obtain ⟨⟨a, rest⟩, hread, hn⟩ := Option.bind_eq_some_iff.mp hn
    obtain ⟨⟨m, u⟩, hsplit, -⟩ := Option.bind_eq_some_iff.mp hn
    exact ⟨a, m, u, rest, hread, hsplit⟩
  · rintro ⟨a, m, u, rest, hread, hsplit⟩
    simp [packets?, hread, hsplit]

theorem not_percentText_of_bandwidthText {a' : Amount} (h : BandwidthText s a m u) : ¬ PercentText s a' := by
  intro hpercent
  obtain ⟨rest, hread, hsplit⟩ := (read_split_iff separable_bandwidthSuffixes).mpr (bandwidthText_iff.mp h)
  cases hread.symm.trans (percentText_iff.mp hpercent)
  have hunsplit : splitSuffix? bandwidthSuffixes ['%'] = none := by decide
  rw [hunsplit] at hsplit
  cases hsplit

/-- The decimal digits of a text are those of its number, since a suffix has none. -/
theorem isDigit_of_spaced {suffix : List Char} (h : a.Spaced s suffix)
    (hsuffix : ∀ c ∈ suffix, c.toNat < 128 ∨ IsLetter c) {c : Char} (hc : c ∈ s.toList)
    (hdecimal : isDecimal c = true) : c.isDigit = true := by
  rcases Amount.mem_of_spaced h hc with hblank | hdigit | rfl | hmem
  · exact isDigit_of_isDecimal hdecimal (.inl hblank)
  · exact hdigit
  · exact absurd hdecimal (by decide)
  · exact isDigit_of_isDecimal hdecimal (.inr (hsuffix c hmem))

theorem eq_none_of_foreign_digit {c : Char} (hc : c ∈ s.toList) (hdecimal : isDecimal c = true)
    (hforeign : c.isDigit = false) : bandwidth? s = none ∧ percent? s = none ∧ packets? s = none := by
  have hnone : ∀ {α : Type} {o : Option α}, (o.isSome → c.isDigit = true) → o = none := by
    intro α o hdigit
    rw [← Option.not_isSome_iff_eq_none]
    intro hsome
    rw [hdigit hsome] at hforeign
    cases hforeign
  refine ⟨hnone fun h => ?_, hnone fun h => ?_, hnone fun h => ?_⟩
  · obtain ⟨a, m, u, htext⟩ := bandwidth?_isSome_iff.mp h
    obtain ⟨hspaced, hmem⟩ := bandwidthText_iff.mp htext
    exact isDigit_of_spaced hspaced (fun c hc => .inr (isLetter_of_mem separable_bandwidthSuffixes hmem hc))
      hc hdecimal
  · obtain ⟨a, htext⟩ := percent?_isSome_iff.mp h
    have hsign : ∀ c ∈ ['%'], c.toNat < 128 := List.forall_mem_singleton.mpr (by decide)
    exact isDigit_of_spaced htext (fun c hc => .inl (hsign c hc)) hc hdecimal
  · obtain ⟨a, m, u, htext⟩ := packets?_isSome_iff.mp h
    obtain ⟨hspaced, hmem⟩ := packetText_iff.mp htext
    exact isDigit_of_spaced hspaced (fun c hc => .inr (isLetter_of_mem separable_packetSuffixes hmem hc))
      hc hdecimal

theorem bandwidth?_eq_none_or_percent?_eq_none (s : String) : bandwidth? s = none ∨ percent? s = none := by
  by_contra hboth
  rw [not_or, ← Ne, ← Ne, Option.ne_none_iff_isSome, Option.ne_none_iff_isSome] at hboth
  obtain ⟨a, m, u, hbandwidth⟩ := bandwidth?_isSome_iff.mp hboth.1
  obtain ⟨a', hpercent⟩ := percent?_isSome_iff.mp hboth.2
  exact not_percentText_of_bandwidthText hbandwidth hpercent

/-- How the texts of rates are read: exactly those of the grammars, and each in one way. -/
structure ReadsGrammars (s : String) : Prop where
  bandwidth : (bandwidth? s).isSome ↔ ∃ a m u, BandwidthText s a m u
  percent : (percent? s).isSome ↔ ∃ a, PercentText s a
  packets : (packets? s).isSome ↔ ∃ a m u, PacketText s a m u
  bandwidth_unique : ∀ {a m u a' m' u'}, BandwidthText s a m u → BandwidthText s a' m' u' →
    a = a' ∧ m = m' ∧ u = u'
  percent_unique : ∀ {a a'}, PercentText s a → PercentText s a' → a = a'
  packets_unique : ∀ {a m u a' m' u'}, PacketText s a m u → PacketText s a' m' u' →
    a = a' ∧ m = m' ∧ u = u'
  /-- No text of a rate has a digit of another script. -/
  digits : ∀ c ∈ s.toList, isDecimal c = true → c.isDigit = false →
    bandwidth? s = none ∧ percent? s = none ∧ packets? s = none
  exclusive : bandwidth? s = none ∨ percent? s = none
  /-- A rate is read the same, whichever of its two readings is tried first. -/
  rate : Rate.ofText s = match bandwidth? s, percent? s with
    | some bytes, _ => .absolute (some bytes)
    | none, some share => .percent share
    | none, none => .absolute none

theorem readsGrammars (s : String) : ReadsGrammars s where
  bandwidth := bandwidth?_isSome_iff
  percent := percent?_isSome_iff
  packets := packets?_isSome_iff
  bandwidth_unique h h' :=
    spaced_unique separable_bandwidthSuffixes (bandwidthText_iff.mp h) (bandwidthText_iff.mp h')
  percent_unique h h' := by
    cases (percentText_iff.mp h).symm.trans (percentText_iff.mp h')
    rfl
  packets_unique h h' :=
    spaced_unique separable_packetSuffixes (packetText_iff.mp h) (packetText_iff.mp h')
  digits _ hc hdecimal hforeign := eq_none_of_foreign_digit hc hdecimal hforeign
  exclusive := bandwidth?_eq_none_or_percent?_eq_none s
  rate := by
    rw [Rate.ofText]
    rcases bandwidth?_eq_none_or_percent?_eq_none s with hnone | hnone <;> rw [hnone]
    · cases percent? s <;> rfl
    · cases bandwidth? s <;> rfl

example : (packets? " 2.5 KPPS ").isSome = true ∧ bandwidth? "2 k bit" = none ∧ bandwidth? "\u0662k" = none := by
  decide

end Rate
end QosControl
