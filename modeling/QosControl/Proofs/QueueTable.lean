import Mathlib.Data.List.Basic
import QosControl.Proofs.Tables
import QosControl.Proofs.BackReferences
import QosControl.Scenario

/-! # Queue numbers without collisions

The counters of the four traffic classes do not touch each other, so a class numbers its queues as
if they were alone, from zero on, or from one on if the first of them serves local priority traffic.
A table that breaks no rule has room for all of its queues, and no two of them have one number.
-/
namespace QosControl
open Json

namespace Qmap

theorem decode_encode {cls wrr precedence : Nat} (hcls : cls < classCount) (hwrr : wrr < wrrCount)
    (hprecedence : precedence ≤ Text.wordMax 8) : decode (encode cls wrr precedence) = (cls, wrr, precedence) := by
  have hbyte : Text.wordMax 8 = 255 := rfl
  simp only [classCount, wrrCount] at hcls hwrr
  have h₁ : (precedence * 32 + wrr % 8 * 4 + cls % 4) % 4 = cls := by omega
  have h₂ : (precedence * 32 + wrr % 8 * 4 + cls % 4) / 4 % 8 = wrr := by omega
  have h₃ : (precedence * 32 + wrr % 8 * 4 + cls % 4) / 32 % 256 = precedence := by omega
  rw [decode, encode, h₁, h₂, h₃]

theorem encode_zero_lt (cls wrr : Nat) : encode cls wrr 0 < pipeQueueCount := by
  simp only [encode, pipeQueueCount]
  omega

end Qmap

namespace ClassQueues

theorem getElem_place (cs : Vector ClassQueues classCount) (q : Queue) {cls : Nat} (h : cls < classCount) :
    (place cs q)[cls] = if q.trafficClass = cls then cs[cls].push q else cs[cls] := by
  unfold place
  by_cases hq : q.trafficClass < classCount
  · rw [dif_pos hq, Vector.getElem_set]
    by_cases heq : q.trafficClass = cls
    · subst heq
      rw [if_pos rfl]
    · rw [if_neg heq, if_neg heq]
  · have hne : q.trafficClass ≠ cls := by
      intro heq
      exact hq (heq ▸ h)
    rw [dif_neg hq, if_neg hne]

/-- What a class holds comes from its own queues. -/
theorem getElem_foldl_place (qs : List Queue) (cs : Vector ClassQueues classCount) {cls : Nat}
    (h : cls < classCount) :
    (qs.foldl place cs)[cls] = (qs.filter fun q => q.trafficClass = cls).foldl push cs[cls] := by
  induction qs generalizing cs with
  | nil => rfl
  | cons q qs ih =>
    rw [List.foldl_cons, ih, getElem_place cs q h]
    by_cases hq : q.trafficClass = cls
    · rw [if_pos hq, List.filter_cons_of_pos (by simpa using hq), List.foldl_cons]
    · rw [if_neg hq, List.filter_cons_of_neg (by simpa using hq)]

/-- Where the first of some queues goes. -/
def start (c : ClassQueues) : List Queue → Nat
  | [] => c.next
  | q :: _ => c.position q

theorem start_push (c : ClassQueues) (q : Queue) (qs : List Queue) : (c.push q).start qs = c.position q + 1 := by
  cases qs with
  | nil => rfl
  | cons r qs =>
    -- position zero is behind once a queue is placed
    have hnext : (c.push q).next = c.position q + 1 := rfl
    simp [start, position, hnext]

/-- Queues of one class that are placed one after the other take consecutive positions. -/
theorem placed_foldl_push (qs : List Queue) (c : ClassQueues) :
    (qs.foldl push c).placed = c.placed ++ qs.mapIdx fun i q => (q, min (c.start qs + i) (Text.wordMax 8)) := by
  induction qs generalizing c with
  | nil => simp
  | cons q qs ih =>
    have hshift : ∀ i, c.position q + 1 + i = c.position q + (i + 1) := by
      intro i
      omega
    rw [List.foldl_cons, ih, start_push, List.mapIdx_cons]
    simp only [hshift]
    simp [push, start]

end ClassQueues

namespace PipeQueues
variable {qs : PipeQueues} {id cls : Nat} {q : Queue}

/-- Whether the queue of the lowest id in a class serves local priority traffic. -/
def localFirst (qs : PipeQueues) (cls : Nat) : Bool := (qs.ofClass cls).head?.any (·.priorityLocal)

theorem placed_eq_mapIdx_filter (h : cls < classCount) : qs.placed cls =
    (qs.queues.values.filter fun q => q.trafficClass = cls).mapIdx fun i q =>
      (q, min (ClassQueues.empty.start (qs.queues.values.filter fun q => q.trafficClass = cls) + i)
        (Text.wordMax 8)) := by
  have hsome : qs.byClass[cls]? = some qs.byClass[cls] := by simp [h]
  have hempty : (Vector.replicate classCount ClassQueues.empty)[cls] = ClassQueues.empty := by simp
  rw [placed, hsome, Option.map_some, Option.getD_some, byClass, ClassQueues.getElem_foldl_place _ _ h,
    hempty, ClassQueues.placed_foldl_push]
  rfl

theorem ofClass_eq_filter (h : cls < classCount) :
    qs.ofClass cls = qs.queues.values.filter fun q => q.trafficClass = cls := by
  rw [ofClass, placed_eq_mapIdx_filter h]
  refine List.ext_getElem (by simp) fun i hi hj => ?_
  simp

theorem start_ofClass : ClassQueues.empty.start (qs.ofClass cls) = (qs.localFirst cls).toNat := by
  rw [localFirst]
  cases qs.ofClass cls with
  | nil => rfl
  | cons q rest => cases hq : q.priorityLocal <;> simp [ClassQueues.start, ClassQueues.position, ClassQueues.empty, hq]

theorem placed_eq (h : cls < classCount) : qs.placed cls =
    (qs.ofClass cls).mapIdx fun i q => (q, min ((qs.localFirst cls).toNat + i) (Text.wordMax 8)) := by
  rw [← start_ofClass, ofClass_eq_filter h]
  exact placed_eq_mapIdx_filter h

theorem overfull_eq_true_iff (h : cls < classCount) : qs.overfull cls = true ↔
    wrrCount < (qs.ofClass cls).length ∨ (qs.ofClass cls).length = wrrCount ∧ qs.localFirst cls = true := by
  have hplaced : (qs.placed cls).any (fun x => wrrCount ≤ x.2) = true ↔
      ∃ i < (qs.ofClass cls).length, 8 ≤ (qs.localFirst cls).toNat + i := by
    rw [placed_eq h, List.any_eq_true]
    constructor
    · rintro ⟨x, hx, hle⟩
      obtain ⟨i, hi, rfl⟩ := List.mem_mapIdx.mp hx
      have hle : 8 ≤ min ((qs.localFirst cls).toNat + i) 255 := of_decide_eq_true hle
      exact ⟨i, hi, by omega⟩
    · rintro ⟨i, hi, hle⟩
      refine ⟨_, List.mem_mapIdx.mpr ⟨i, hi, rfl⟩, decide_eq_true ?_⟩
      exact Nat.le_min.mpr ⟨hle, by decide⟩
  have hbit : (qs.localFirst cls).toNat = 1 ∧ qs.localFirst cls = true ∨
      (qs.localFirst cls).toNat = 0 ∧ qs.localFirst cls = false := by cases qs.localFirst cls <;> simp
  rw [overfull, Bool.or_eq_true, decide_eq_true_eq, hplaced]
  simp only [wrrCount]
  constructor
  · rintro (hlong | ⟨i, hi, hlast⟩)
    · exact .inl hlong
    · rcases hbit with ⟨hnat, hlocal⟩ | ⟨hnat, _⟩
      · by_cases hlong : 8 < (qs.ofClass cls).length
        · exact .inl hlong
        · exact .inr ⟨by omega, hlocal⟩
      · exact .inl (by omega)
  · rintro (hlong | ⟨hfull, hlocal⟩)
    · exact .inl hlong
    · exact .inr ⟨7, by omega, by rw [hlocal]; decide⟩

/-- Every queue is in the table under its own id. -/
def Keyed (qs : PipeQueues) : Prop := ∀ id q, qs.get? id = some q → q.id = id

theorem keyed_of_ofValues {vs : List Value} (h : ofValues vs = .ok qs) : qs.Keyed := by
  intro id q hq
  obtain ⟨xs, _, h⟩ := Outcome.bind_eq_ok.mp h
  cases h
  obtain ⟨x, _, hx⟩ := List.mem_map.mp (Table.mem_of_get?_ofList hq)
  cases hx
  rfl

namespace Keyed
variable (h : qs.Keyed)
include h

theorem mem_values_iff : q ∈ qs.queues.values ↔ qs.get? q.id = some q := by
  rw [Table.mem_values_iff]
  constructor
  · rintro ⟨id, hq⟩
    rw [h id q hq]
    exact hq
  · intro hq
    exact ⟨q.id, hq⟩

theorem ascending_values : qs.queues.values.Pairwise fun q r => q.id < r.id := by
  refine List.pairwise_map.mpr (qs.queues.ascending.imp_of_mem fun {a b} ha hb hlt => ?_)
  have hid : ∀ e ∈ qs.queues.entries, e.2.id = e.1 := by
    intro e he
    exact h e.1 e.2 (Table.get?_of_mem_entries he)
  rw [hid a ha, hid b hb]
  exact hlt

theorem ascending_ofClass (hcls : cls < classCount) : (qs.ofClass cls).Pairwise fun q r => q.id < r.id := by
  rw [ofClass_eq_filter hcls]
  exact h.ascending_values.filter _

theorem mem_ofClass_iff (hcls : cls < classCount) :
    q ∈ qs.ofClass cls ↔ qs.get? q.id = some q ∧ q.trafficClass = cls := by
  rw [ofClass_eq_filter hcls, List.mem_filter, decide_eq_true_eq, h.mem_values_iff]

theorem wrr?_getElem (hcls : cls < classCount) {i : Nat} (hi : i < (qs.ofClass cls).length) :
    qs.wrr? (qs.ofClass cls)[i] = some (min ((qs.localFirst cls).toNat + i) (Text.wordMax 8)) := by
  have hclass : ((qs.ofClass cls)[i]).trafficClass = cls := ((h.mem_ofClass_iff hcls).mp (List.getElem_mem hi)).2
  have hfound : (qs.placed cls).find? (fun x => x.1.id = ((qs.ofClass cls)[i]).id) =
      some ((qs.ofClass cls)[i], min ((qs.localFirst cls).toNat + i) (Text.wordMax 8)) := by
    rw [List.find?_eq_some_iff_getElem]
    refine ⟨by simp, i, by simpa [placed_eq hcls] using hi, by simp [placed_eq hcls], fun j hj => ?_⟩
    have hlt := List.pairwise_iff_getElem.mp (h.ascending_ofClass hcls) j i (by omega) hi hj
    simp [placed_eq hcls, Nat.ne_of_lt hlt]
  rw [wrr?, hclass, hfound, Option.map_some]

end Keyed

/-- How a table numbers its queues when no two queues get in each other's way. -/
structure CollisionFree (qs : PipeQueues) : Prop where
  decode : ∀ id q, qs.get? id = some q → ∀ precedence ≤ Text.wordMax 8, ∃ wrr, qs.wrr? q = some wrr ∧
    Qmap.decode (qs.qmap id precedence) = (q.trafficClass, wrr, precedence)
  injective : ∀ id jd, (qs.get? id).isSome = true → (qs.get? jd).isSome = true →
    ∀ m ≤ Text.wordMax 8, ∀ n ≤ Text.wordMax 8, qs.qmap id m = qs.qmap jd n → id = jd ∧ m = n
  inTable : ∀ id, (qs.get? id).isSome = true → qs.qmap id 0 < pipeQueueCount
  /-- The positions of a class in the order of ids: from one on if the first of its queues serves
  local priority traffic, and from zero on if not. -/
  consecutive : ∀ cls < classCount, (qs.ofClass cls).map qs.wrr? =
    (List.range' (qs.localFirst cls).toNat (qs.ofClass cls).length).map some
  priorityLocal : ∀ id q, qs.get? id = some q → q.priorityLocal = true → qs.wrr? q ≠ some 0
  ascending : ∀ cls < classCount, ((qs.ofClass cls).map (·.id)).Pairwise (· < ·)
  members : ∀ cls < classCount, ∀ id, id ∈ (qs.ofClass cls).map (·.id) ↔
    ∃ q, qs.get? id = some q ∧ q.trafficClass = cls

theorem queueFailures_eq_nil_iff {classes : TrafficClasses} {path : String} :
    queueFailures q classes path = [] ↔ q.id < pipeQueueCount ∧
      ∃ c, classes.get? q.trafficClass = some c ∧ q.failures c.explicitLimit? path = [] := by
  unfold queueFailures
  by_cases hid : pipeQueueCount ≤ q.id
  · rw [if_pos hid]
    constructor
    · intro hf
      cases hf
    · rintro ⟨hlt, _⟩
      omega
  · rw [if_neg hid]
    cases hc : classes.get? q.trafficClass with
    | none => simp
    | some c => simp [Nat.lt_of_not_le hid]

theorem failures_eq_nil_iff {classes : TrafficClasses} {path : String} : qs.failures classes path = [] ↔
    (∀ q ∈ qs.queues.values, queueFailures q classes s!"{path}/queue/{q.id}" = []) ∧
      ∀ cls < classCount, qs.overfull cls = false := by
  rw [failures, List.append_eq_nil_iff, List.flatMap_eq_nil_iff, List.flatMap_eq_nil_iff]
  refine and_congr_right fun _ => ?_
  simp

theorem get?_classes_eq_some_iff {classes : TrafficClasses} {cls : Nat} :
    (∃ c, classes.get? cls = some c) ↔ cls < classCount := by
  rw [← Option.isSome_iff_exists, TrafficClasses.get?]
  simp

/-- Whether the class of every queue is there and has a position for it. -/
structure Fits (qs : PipeQueues) : Prop where
  trafficClass : ∀ id q, qs.get? id = some q → q.trafficClass < classCount
  overfull : ∀ cls < classCount, qs.overfull cls = false

theorem fits_of_failures {classes : TrafficClasses} {path : String} (h : qs.failures classes path = []) : qs.Fits where
  trafficClass id q hq := by
    have hmem : q ∈ qs.queues.values := Table.mem_values_iff.mpr ⟨id, hq⟩
    obtain ⟨_, c, hc, _⟩ := queueFailures_eq_nil_iff.mp ((failures_eq_nil_iff.mp h).1 q hmem)
    exact get?_classes_eq_some_iff.mp ⟨c, hc⟩
  overfull := (failures_eq_nil_iff.mp h).2

namespace Fits
variable (hf : qs.Fits) (h : qs.Keyed)

include hf in
theorem position_lt (hcls : cls < classCount) {i : Nat} (hi : i < (qs.ofClass cls).length) :
    (qs.localFirst cls).toNat + i < wrrCount := by
  have hnot : ¬ qs.overfull cls = true := by simp [hf.overfull cls hcls]
  rw [overfull_eq_true_iff hcls] at hnot
  have hbit : (qs.localFirst cls).toNat = 1 ∧ qs.localFirst cls = true ∨ (qs.localFirst cls).toNat = 0 := by
    cases qs.localFirst cls <;> simp
  simp only [wrrCount] at hnot ⊢
  rcases hbit with ⟨hnat, hlocal⟩ | hnat
  · have hne : (qs.ofClass cls).length ≠ 8 := fun hfull => hnot (.inr ⟨hfull, hlocal⟩)
    omega
  · omega

include hf h

theorem wrr?_getElem (hcls : cls < classCount) {i : Nat} (hi : i < (qs.ofClass cls).length) :
    qs.wrr? (qs.ofClass cls)[i] = some ((qs.localFirst cls).toNat + i) := by
  have hlt := hf.position_lt hcls hi
  have hbyte : (qs.localFirst cls).toNat + i ≤ Text.wordMax 8 := Nat.le_trans (Nat.le_of_lt hlt) (by decide)
  rw [h.wrr?_getElem hcls hi, Nat.min_eq_left hbyte]

theorem exists_place {id : Nat} (hq : qs.get? id = some q) : ∃ i, ∃ hi : i < (qs.ofClass q.trafficClass).length,
    (qs.ofClass q.trafficClass)[i] = q ∧ qs.wrr? q = some ((qs.localFirst q.trafficClass).toNat + i) := by
  have hcls := hf.trafficClass id q hq
  have hself : qs.get? q.id = some q := by
    rw [h id q hq]
    exact hq
  obtain ⟨i, hi, heq⟩ := List.getElem_of_mem ((h.mem_ofClass_iff hcls).mpr ⟨hself, rfl⟩)
  refine ⟨i, hi, heq, ?_⟩
  have hwrr := hf.wrr?_getElem h hcls hi
  rw [heq] at hwrr
  exact hwrr

theorem decode_qmap {id : Nat} (hq : qs.get? id = some q) {precedence : Nat} (hp : precedence ≤ Text.wordMax 8) :
    ∃ wrr, qs.wrr? q = some wrr ∧ Qmap.decode (qs.qmap id precedence) = (q.trafficClass, wrr, precedence) := by
  obtain ⟨i, hi, _, hwrr⟩ := hf.exists_place h hq
  have hcls := hf.trafficClass id q hq
  have hnumber : qs.qmap id precedence =
      Qmap.encode q.trafficClass ((qs.localFirst q.trafficClass).toNat + i) precedence := by
    simp only [qmap, hq, Queue.qmap, hwrr, Option.getD_some]
  refine ⟨_, hwrr, ?_⟩
  rw [hnumber]
  exact Qmap.decode_encode hcls (hf.position_lt hcls hi) hp

theorem eq_of_wrr?_eq {id jd : Nat} {r : Queue} (hq : qs.get? id = some q) (hr : qs.get? jd = some r)
    (hcls : q.trafficClass = r.trafficClass) (hwrr : qs.wrr? q = qs.wrr? r) : q = r := by
  obtain ⟨i, hi, hqi, hqw⟩ := hf.exists_place h hq
  obtain ⟨j, hj, hrj, hrw⟩ := hf.exists_place h hr
  have hij : i = j := by
    rw [hqw, hrw, hcls, Option.some.injEq] at hwrr
    omega
  subst hij
  simp only [hcls] at hqi
  rw [← hqi, hrj]

theorem qmap_injective {id jd m n : Nat} (hid : (qs.get? id).isSome = true) (hjd : (qs.get? jd).isSome = true)
    (hm : m ≤ Text.wordMax 8) (hn : n ≤ Text.wordMax 8) (heq : qs.qmap id m = qs.qmap jd n) : id = jd ∧ m = n := by
  obtain ⟨q, hq⟩ := Option.isSome_iff_exists.mp hid
  obtain ⟨r, hr⟩ := Option.isSome_iff_exists.mp hjd
  obtain ⟨v, hv, hdq⟩ := hf.decode_qmap h hq hm
  obtain ⟨w, hw, hdr⟩ := hf.decode_qmap h hr hn
  rw [heq, hdr] at hdq
  obtain ⟨hcls, hpair⟩ := Prod.mk.inj hdq
  obtain ⟨hwrr, hmn⟩ := Prod.mk.inj hpair
  have hqr : q = r := hf.eq_of_wrr?_eq h hq hr hcls.symm (by rw [hv, hw, hwrr])
  exact ⟨by rw [← h id q hq, ← h jd r hr, hqr], hmn.symm⟩

theorem map_wrr?_ofClass (hcls : cls < classCount) : (qs.ofClass cls).map qs.wrr? =
    (List.range' (qs.localFirst cls).toNat (qs.ofClass cls).length).map some := by
  refine List.ext_getElem (by simp) fun i hi _ => ?_
  rw [List.length_map] at hi
  rw [List.getElem_map, List.getElem_map, List.getElem_range', hf.wrr?_getElem h hcls hi, Nat.one_mul]

/-- At position zero stands the first queue of a class, unless it serves local priority traffic. -/
theorem wrr?_ne_zero {id : Nat} (hq : qs.get? id = some q) (hlocal : q.priorityLocal = true) :
    qs.wrr? q ≠ some 0 := by
  obtain ⟨i, hi, hqi, hwrr⟩ := hf.exists_place h hq
  rw [hwrr]
  intro hzero
  have hsum : (qs.localFirst q.trafficClass).toNat + i = 0 := Option.some.inj hzero
  have hfirst : i = 0 := by omega
  subst hfirst
  have hhead : (qs.ofClass q.trafficClass).head? = some q := by
    rw [List.head?_eq_getElem?, List.getElem?_eq_getElem hi, hqi]
  have htrue : qs.localFirst q.trafficClass = true := by simp [localFirst, hhead, hlocal]
  simp [htrue] at hsum

theorem collisionFree : qs.CollisionFree where
  decode _ _ hq _ hp := hf.decode_qmap h hq hp
  injective _ _ hid hjd _ hm _ hn heq := hf.qmap_injective h hid hjd hm hn heq
  inTable id hid := by
    obtain ⟨q, hq⟩ := Option.isSome_iff_exists.mp hid
    rw [qmap, hq]
    exact Qmap.encode_zero_lt _ _
  consecutive _ hcls := hf.map_wrr?_ofClass h hcls
  priorityLocal _ _ hq hlocal := hf.wrr?_ne_zero h hq hlocal
  ascending _ hcls := List.pairwise_map.mpr (h.ascending_ofClass hcls)
  members cls hcls id := by
    rw [List.mem_map]
    constructor
    · rintro ⟨q, hq, rfl⟩
      exact ⟨q, (h.mem_ofClass_iff hcls).mp hq⟩
    · rintro ⟨q, hq, hc⟩
      have hid := h id q hq
      exact ⟨q, (h.mem_ofClass_iff hcls).mpr ⟨by rw [hid]; exact hq, hc⟩, hid⟩

end Fits

/-- Where every queue keeps its own rules, a table is refused if it is too full and only then. -/
theorem failures_ne_nil_iff {classes : TrafficClasses} {path : String}
    (hown : ∀ q ∈ qs.queues.values, q.id < pipeQueueCount ∧ q.trafficClass < classCount ∧
      ∀ c, classes.get? q.trafficClass = some c → q.failures c.explicitLimit? s!"{path}/queue/{q.id}" = []) :
    qs.failures classes path ≠ [] ↔ ∃ cls < classCount, wrrCount < (qs.ofClass cls).length ∨
      (qs.ofClass cls).length = wrrCount ∧ qs.localFirst cls = true := by
  have hqueues : ∀ q ∈ qs.queues.values, queueFailures q classes s!"{path}/queue/{q.id}" = [] := by
    intro q hq
    obtain ⟨hid, hcls, hrules⟩ := hown q hq
    obtain ⟨c, hc⟩ := get?_classes_eq_some_iff.mpr hcls
    exact queueFailures_eq_nil_iff.mpr ⟨hid, c, hc, hrules c hc⟩
  rw [Ne, failures_eq_nil_iff, not_and]
  constructor
  · intro hfull
    have hsome := hfull hqueues
    push Not at hsome
    obtain ⟨cls, hcls, hover⟩ := hsome
    exact ⟨cls, hcls, (overfull_eq_true_iff hcls).mp (by simpa using hover)⟩
  · rintro ⟨cls, hcls, hover⟩ _ hnone
    have htrue := (overfull_eq_true_iff hcls).mpr hover
    rw [hnone cls hcls] at htrue
    cases htrue

/-- A queue table that is accepted has no collisions. A table whose queues keep their own rules is
refused exactly if a class has more than eight queues, or eight of which the first serves local
priority traffic. -/
theorem collisionFree_and_failures_ne_nil_iff {vs : List Value} (hqs : ofValues vs = .ok qs)
    (classes : TrafficClasses) (path : String) : (qs.failures classes path = [] → qs.CollisionFree) ∧
      ((∀ q ∈ qs.queues.values, q.id ≤ 31 ∧ q.trafficClass ≤ 3 ∧ ∀ c, classes.get? q.trafficClass = some c →
        q.failures c.explicitLimit? s!"{path}/queue/{q.id}" = []) →
          (qs.failures classes path ≠ [] ↔ ∃ cls < classCount, wrrCount < (qs.ofClass cls).length ∨
            (qs.ofClass cls).length = wrrCount ∧ qs.localFirst cls = true)) := by
  refine ⟨fun hf => (fits_of_failures hf).collisionFree (keyed_of_ofValues hqs), fun hown => ?_⟩
  refine failures_ne_nil_iff fun q hq => ?_
  obtain ⟨hid, hcls, hrules⟩ := hown q hq
  exact ⟨Nat.lt_succ_of_le hid, Nat.lt_succ_of_le hcls, hrules⟩

def queueList (queues : List (Nat × Nat × Bool)) : List Value := queues.map fun (id, cls, marked) =>
  .object ([("id", Scenario.word id), ("traffic-class", Scenario.word cls)] ++
    if marked then [("priority-local", .array [.null])] else [])

theorem collisionFree_and_failures_ne_nil_iff_marked : ∃ qs full,
    ofValues (queueList [(9, 1, false), (0, 0, true), (4, 0, true), (1, 1, false)]) = .ok qs ∧
    qs.failures TrafficClasses.default "prof" = [] ∧ qs.CollisionFree ∧
    ofValues (queueList ((0, 0, true) :: (List.range 7).map fun i => (i + 1, 0, false))) = .ok full ∧
    (∀ q ∈ full.queues.values, q.id ≤ 31 ∧ q.trafficClass ≤ 3 ∧ q.weight = 1 ∧ q.wred = []) ∧
    full.failures TrafficClasses.default "prof" ≠ [] := by
  have haccepted : (ofValues (queueList [(9, 1, false), (0, 0, true), (4, 0, true), (1, 1, false)])).toOption.any
      (fun qs => qs.failures TrafficClasses.default "prof" = []) = true := by decide +kernel
  have hrefused : (ofValues (queueList ((0, 0, true) :: (List.range 7).map fun i => (i + 1, 0, false)))).toOption.any
      (fun full => (∀ q ∈ full.queues.values, q.id ≤ 31 ∧ q.trafficClass ≤ 3 ∧ q.weight = 1 ∧ q.wred = []) ∧
        (full.ofClass 0).length = wrrCount ∧ full.localFirst 0 = true) = true := by decide +kernel
  obtain ⟨qs, hqs, hnil⟩ := (Option.any_eq_true _ _).mp haccepted
  obtain ⟨full, hfull, hrest⟩ := (Option.any_eq_true _ _).mp hrefused
  obtain ⟨hown, hlength, hlocal⟩ := of_decide_eq_true hrest
  have hqs := Outcome.eq_ok_of_toOption hqs
  have hfull := Outcome.eq_ok_of_toOption hfull
  have hnil := of_decide_eq_true hnil
  have hfree := (collisionFree_and_failures_ne_nil_iff hqs TrafficClasses.default "prof").1 hnil
  have hiff := (collisionFree_and_failures_ne_nil_iff hfull TrafficClasses.default "prof").2 fun q hq => by
    obtain ⟨hid, hcls, hweight, hwred⟩ := hown q hq
    exact ⟨hid, hcls, fun c _ => by simp [Queue.failures, hweight, hwred, maxWeight]⟩
  exact ⟨qs, full, hqs, hnil, hfree, hfull, hown, hiff.mpr ⟨0, by decide, .inr ⟨hlength, hlocal⟩⟩⟩

end PipeQueues
end QosControl
