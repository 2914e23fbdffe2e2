import QosControl.Proofs.QueueTable
import QosControl.Profile

/-! # Queue numbers of the targets of a map

A map may target a pipe queue that is not configured, whose id then stands for itself. The numbers
of configured queues and such ids meet in one table of 32 places, below the drop precedence. Two
targets of a profile that is accepted share a number if one of them is configured at the place
that the id of the other, which is not configured, stands for, and in no other case.
-/
namespace QosControl
open Json

namespace Text

def hexadecimalDigits : List Char :=
  ['0', '1', '2', '3', '4', '5', '6', '7', '8', '9', 'a', 'b', 'c', 'd', 'e', 'f']

/-- The value of a run of hexadecimal digits. -/
def hexadecimalValue (cs : List Char) : Nat := cs.foldl (fun n c => 16 * n + hexadecimalDigits.idxOf c) 0

theorem idxOf_digitChar {d : Nat} (h : d < 16) : hexadecimalDigits.idxOf (Nat.digitChar d) = d := by
  decide +revert

theorem hexadecimalValue_append_singleton (cs : List Char) (c : Char) :
    hexadecimalValue (cs ++ [c]) = 16 * hexadecimalValue cs + hexadecimalDigits.idxOf c := by
  rw [hexadecimalValue, List.foldl_append]
  rfl

theorem hexadecimalValue_toDigits (n : Nat) : hexadecimalValue (Nat.toDigits 16 n) = n := by
  induction n using Nat.strongRecOn with
  | ind n ih =>
    by_cases hn : n < 16
    · have hsingle : hexadecimalValue [Nat.digitChar n] = 16 * 0 + hexadecimalDigits.idxOf (Nat.digitChar n) := rfl
      rw [Nat.toDigits_of_lt_base hn, hsingle, idxOf_digitChar hn, Nat.mul_zero, Nat.zero_add]
    · have hlast := idxOf_digitChar (Nat.mod_lt n (by decide : 0 < 16))
      rw [Nat.toDigits_of_base_le (by decide) (Nat.le_of_not_lt hn), hexadecimalValue_append_singleton,
        ih (n / 16) (by omega), hlast]
      exact Nat.div_add_mod n 16

theorem hexadecimal_injective {m n : Nat} (h : hexadecimal m = hexadecimal n) : m = n := by
  have hdigits : Nat.toDigits 16 m = Nat.toDigits 16 n := by
    have hlist := String.ofList_injective h
    simpa using hlist
  rw [← hexadecimalValue_toDigits m, hdigits, hexadecimalValue_toDigits]

end Text

namespace Qmap

theorem text_eq_text_iff {a b : Nat} : text a = text b ↔ a = b :=
  ⟨Text.hexadecimal_injective, congrArg text⟩

theorem encode_eq (cls wrr precedence : Nat) : encode cls wrr precedence = precedence * 32 + encode cls wrr 0 := by
  simp only [encode]
  omega

/-- The id of a queue that is not configured takes the five bits of class and position. -/
theorem ofUnconfigured_eq {id : Nat} (hid : id < pipeQueueCount) (precedence : Nat) :
    ofUnconfigured id precedence = precedence * 32 + id := by
  have hfive : id < 2 ^ 5 := hid
  have hword : id % twoTo 32 = id := Nat.mod_eq_of_lt (Nat.lt_trans hid (by decide))
  rw [ofUnconfigured, hword, ← Nat.shiftLeft_add_eq_or_of_lt hfive, Nat.shiftLeft_eq]

end Qmap

namespace PipeQueues
variable {qs : PipeQueues} {id jd m n : Nat}

/-- The place of an id in the table of 32 queues: its number without a drop precedence. -/
def place (qs : PipeQueues) (id : Nat) : Nat := qs.qmap id 0

theorem place_lt (hid : id < pipeQueueCount) : qs.place id < pipeQueueCount := by
  rw [place, qmap]
  cases qs.get? id with
  | some q => exact Qmap.encode_zero_lt _ _
  | none =>
    rw [Qmap.ofUnconfigured_eq hid, Nat.zero_mul, Nat.zero_add]
    exact hid

theorem qmap_eq (hid : id < pipeQueueCount) (precedence : Nat) :
    qs.qmap id precedence = precedence * 32 + qs.place id := by
  rw [place, qmap, qmap]
  cases qs.get? id with
  | some q => exact Qmap.encode_eq _ _ _
  | none => rw [Qmap.ofUnconfigured_eq hid, Qmap.ofUnconfigured_eq hid, Nat.zero_mul, Nat.zero_add]

theorem qmap_eq_qmap_iff (hid : id < pipeQueueCount) (hjd : jd < pipeQueueCount) :
    qs.qmap id m = qs.qmap jd n ↔ m = n ∧ qs.place id = qs.place jd := by
  have hi : qs.place id < 32 := place_lt hid
  have hj : qs.place jd < 32 := place_lt hjd
  rw [qmap_eq hid, qmap_eq hjd]
  omega

theorem place_of_unconfigured (hid : id < pipeQueueCount) (hnone : qs.get? id = none) : qs.place id = id := by
  simp only [place, qmap, hnone, Qmap.ofUnconfigured_eq hid, Nat.zero_mul, Nat.zero_add]

/-- Whether a configured queue stands at the class and position that the id of a queue which is
not configured is the number of. -/
def Takes (qs : PipeQueues) (id jd : Nat) : Prop :=
  ∃ q wrr, qs.get? id = some q ∧ qs.wrr? q = some wrr ∧ qs.get? jd = none ∧ jd = 4 * wrr + q.trafficClass

theorem not_takes_of_unconfigured (hnone : qs.get? id = none) : ¬ qs.Takes id jd := by
  rintro ⟨_, _, hq, _⟩
  rw [hnone] at hq
  cases hq

theorem not_takes_of_configured {r : Queue} (hr : qs.get? jd = some r) : ¬ qs.Takes id jd := by
  rintro ⟨_, _, _, _, hnone, _⟩
  rw [hr] at hnone
  cases hnone

namespace Fits
variable (hf : qs.Fits) (h : qs.Keyed)
include hf h

theorem place_of_configured {q : Queue} (hq : qs.get? id = some q) :
    ∃ wrr, qs.wrr? q = some wrr ∧ qs.place id = 4 * wrr + q.trafficClass := by
  obtain ⟨i, hi, _, hwrr⟩ := hf.exists_place h hq
  have hcls : q.trafficClass < 4 := hf.trafficClass id q hq
  have hlt : (qs.localFirst q.trafficClass).toNat + i < 8 := hf.position_lt hcls hi
  refine ⟨_, hwrr, ?_⟩
  simp only [place, qmap, hq, Queue.qmap, hwrr, Option.getD_some, Qmap.encode]
  omega

theorem place_eq_iff_takes (hjd : jd < pipeQueueCount) {q : Queue} (hq : qs.get? id = some q)
    (hnone : qs.get? jd = none) : qs.place id = qs.place jd ↔ qs.Takes id jd := by
  obtain ⟨wrr, hwrr, hplace⟩ := hf.place_of_configured h hq
  rw [hplace, place_of_unconfigured hjd hnone]
  constructor
  · intro heq
    exact ⟨q, wrr, hq, hwrr, hnone, heq.symm⟩
  · rintro ⟨r, v, hr, hv, _, heq⟩
    obtain rfl : q = r := Option.some.inj (hq.symm.trans hr)
    obtain rfl : wrr = v := Option.some.inj (hwrr.symm.trans hv)
    exact heq.symm

/-- Two ids share a place if one takes that of the other. -/
theorem place_eq_place_iff (hid : id < pipeQueueCount) (hjd : jd < pipeQueueCount) (hne : id ≠ jd) :
    qs.place id = qs.place jd ↔ qs.Takes id jd ∨ qs.Takes jd id := by
  cases hi : qs.get? id with
  | none =>
    cases hj : qs.get? jd with
    | none =>
      have hleft : ¬ qs.Takes id jd := not_takes_of_unconfigured hi
      have hright : ¬ qs.Takes jd id := not_takes_of_unconfigured hj
      simp [place_of_unconfigured hid hi, place_of_unconfigured hjd hj, hne, hleft, hright]
    | some r => rw [or_iff_right (not_takes_of_unconfigured hi), eq_comm, hf.place_eq_iff_takes h hid hj hi]
  | some q =>
    cases hj : qs.get? jd with
    | none => rw [or_iff_left (not_takes_of_unconfigured hj), hf.place_eq_iff_takes h hjd hi hj]
    | some r =>
      have hdiffer : qs.place id ≠ qs.place jd := by
        intro heq
        have hzero : 0 ≤ Text.wordMax 8 := Nat.zero_le _
        exact hne (hf.qmap_injective h (by simp [hi]) (by simp [hj]) hzero hzero heq).1
      have hleft : ¬ qs.Takes id jd := not_takes_of_configured hj
      have hright : ¬ qs.Takes jd id := not_takes_of_configured hi
      simp [hdiffer, hleft, hright]

end Fits
end PipeQueues

namespace Profile

theorem queues_of_ofValue {v : Value} {p : Profile} (h : ofValue v = .ok p) :
    PipeQueues.ofValues (v.items "queue") = .ok p.queues := by
  obtain ⟨name, _, h⟩ := Outcome.bind_eq_ok.mp h
  obtain ⟨classes, _, h⟩ := Outcome.bind_eq_ok.mp h
  obtain ⟨queues, hqueues, h⟩ := Outcome.bind_eq_ok.mp h
  split at h
  all_goals
    obtain ⟨map, _, h⟩ := Outcome.bind_eq_ok.mp h
    cases h
    exact hqueues

/-- Two entries of the map of an accepted profile that target different queues get one number if
they have one drop precedence and one queue takes the place of the other, which is not configured. -/
theorem text_qmap_eq_iff_takes {v : Value} {p : Profile} {path : String} (hp : ofValue v = .ok p)
    (hok : p.failures path = []) : ∀ m, p.map = some m → ∀ x ∈ m.withPrecedence, ∀ y ∈ m.withPrecedence,
      x.1.queue ≤ 31 → y.1.queue ≤ 31 → x.1.queue ≠ y.1.queue →
        (Qmap.text (p.queues.qmap x.1.queue x.2) = Qmap.text (p.queues.qmap y.1.queue y.2) ↔
          x.2 = y.2 ∧ (p.queues.Takes x.1.queue y.1.queue ∨ p.queues.Takes y.1.queue x.1.queue)) := by
  intro m _ x _ y _ hx hy hne
  have hkeyed : p.queues.Keyed := PipeQueues.keyed_of_ofValues (queues_of_ofValue hp)
  have hfits : p.queues.Fits := PipeQueues.fits_of_failures (List.append_eq_nil_iff.mp hok).2
  have hx : x.1.queue < pipeQueueCount := Nat.lt_succ_of_le hx
  have hy : y.1.queue < pipeQueueCount := Nat.lt_succ_of_le hy
  rw [Qmap.text_eq_text_iff, PipeQueues.qmap_eq_qmap_iff hx hy, hfits.place_eq_place_iff hkeyed hx hy hne]

/-- A profile whose map by DSCP targets queues of which some are not configured. -/
def partlyConfigured (queues : List (Nat × Nat × Bool)) (targets : List (String × Nat)) : Value :=
  .ofFields [("id", .string "prof"), ("bandwidth", .string "1Gbit"),
    ("queue", .array (PipeQueues.queueList queues)),
    ("map", .ofFields [("dscp", .array (targets.map fun t =>
      .ofFields [("id", .string t.1), ("to", Scenario.word t.2)]))])]

/-- Of queues zero and one, both of class zero, the second takes the place of queue four and not
that of queue two. -/
theorem text_qmap_eq_iff_takes_four : ∃ p m,
    ofValue (partlyConfigured [(0, 0, false), (1, 0, false)] [("8", 1), ("16", 4), ("24", 2)]) = .ok p ∧
    p.failures "prof" = [] ∧ p.map = some m ∧
    m.withPrecedence = [(⟨"8", 1⟩, 0), (⟨"16", 4⟩, 0), (⟨"24", 2⟩, 0)] ∧
    (p.queues.Takes 1 4 ∨ p.queues.Takes 4 1) ∧ ¬ (p.queues.Takes 1 2 ∨ p.queues.Takes 2 1) := by
  have hread : (ofValue (partlyConfigured [(0, 0, false), (1, 0, false)] [("8", 1), ("16", 4), ("24", 2)])).toOption.any
      (fun p => p.failures "prof" = [] ∧ p.map = some ⟨.dscp, [⟨"8", 1⟩, ⟨"16", 4⟩, ⟨"24", 2⟩]⟩ ∧
        Qmap.text (p.queues.qmap 1 0) = Qmap.text (p.queues.qmap 4 0) ∧
        Qmap.text (p.queues.qmap 1 0) ≠ Qmap.text (p.queues.qmap 2 0)) = true := by decide +kernel
  obtain ⟨p, hp, hfacts⟩ := (Option.any_eq_true _ _).mp hread
  obtain ⟨hok, hmap, hsame, hdiffer⟩ := of_decide_eq_true hfacts
  have hp := Outcome.eq_ok_of_toOption hp
  refine ⟨p, _, hp, hok, hmap, by decide, ?_, fun htakes => ?_⟩
  · exact ((text_qmap_eq_iff_takes hp hok _ hmap (⟨"8", 1⟩, 0) (by decide) (⟨"16", 4⟩, 0) (by decide)
      (by decide) (by decide) (by decide)).mp hsame).2
  · exact hdiffer ((text_qmap_eq_iff_takes hp hok _ hmap (⟨"8", 1⟩, 0) (by decide) (⟨"24", 2⟩, 0) (by decide)
      (by decide) (by decide) (by decide)).mpr ⟨rfl, htakes⟩)

/-- Two queues of an accepted profile, one configured and one not, that share a number. -/
theorem exists_text_qmap_eq : ∃ p m,
    ofValue (partlyConfigured [(0, 0, false), (1, 0, false)] [("8", 1), ("16", 4)]) = .ok p ∧
    p.failures "prof" = [] ∧ p.map = some m ∧ m.withPrecedence = [(⟨"8", 1⟩, 0), (⟨"16", 4⟩, 0)] ∧
    (m.directives 0 p.queues).map PortDirective.text = ["profile 0 dscp 8 0x4", "profile 0 dscp 16 0x4"] ∧
    Qmap.text (p.queues.qmap 1 0) = Qmap.text (p.queues.qmap 4 0) := by
  let m : ProfileMap := ⟨.dscp, [⟨"8", 1⟩, ⟨"16", 4⟩]⟩
  have hread : (ofValue (partlyConfigured [(0, 0, false), (1, 0, false)] [("8", 1), ("16", 4)])).toOption.any
      (fun p => p.failures "prof" = [] ∧ p.map = some m ∧ (m.directives 0 p.queues).map PortDirective.text =
          ["profile 0 dscp 8 0x4", "profile 0 dscp 16 0x4"] ∧
        Qmap.text (p.queues.qmap 1 0) = Qmap.text (p.queues.qmap 4 0)) = true := by decide +kernel
  obtain ⟨p, hp, hfacts⟩ := (Option.any_eq_true _ _).mp hread
  obtain ⟨hok, hmap, hlines, hsame⟩ := of_decide_eq_true hfacts
  exact ⟨p, m, Outcome.eq_ok_of_toOption hp, hok, hmap, by decide, hlines, hsame⟩

end Profile
end QosControl
