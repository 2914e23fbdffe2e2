import Mathlib.Data.List.Nodup
import Mathlib.Data.List.Induction
import QosControl.ProfileMap
import QosControl.Proofs.Tables

/-! # Drop precedences

A map that counts is passed over once, with a count of the uses of each queue. After any entries the
count of a queue is the number of them that target it, as long as that fits a byte, so the first entry
of a queue gets precedence zero, the next one precedence one, and so on up to 255. The pass keeps queues
apart: what the entries of some queues get depends on these entries alone.
-/
namespace QosControl

theorem MapKind.countsPrecedence_iff {kind : MapKind} :
    kind.countsPrecedence = true ↔ kind = .dscpGroup ∨ kind = .designation := by
  cases kind <;> simp [countsPrecedence]

namespace QueueUses

theorem count_add (uses : QueueUses) (used queue : Nat) :
    (uses.add used).count queue = if used = queue then min 255 (uses.count queue + 1) else uses.count queue := by
  rw [count, add, Table.get?_insert]
  split
  next h =>
    subst h
    exact Nat.min_comm _ _
  next => rfl

/-- The counts after some entries. -/
def ofEntries (es : List MapEntry) : QueueUses := es.foldl (fun uses e => uses.add e.queue) empty

theorem ofEntries_append_singleton (es : List MapEntry) (e : MapEntry) :
    ofEntries (es ++ [e]) = (ofEntries es).add e.queue := by
  unfold ofEntries
  rw [List.foldl_append, List.foldl_cons, List.foldl_nil]

theorem count_ofEntries (es : List MapEntry) (queue : Nat) :
    (ofEntries es).count queue = min 255 (es.countP fun e => e.queue = queue) := by
  induction es using List.reverseRecOn with
  | nil => rfl
  | append_singleton es e ih =>
    rw [ofEntries_append_singleton, count_add, ih, List.countP_append, List.countP_singleton]
    by_cases h : e.queue = queue
    · rw [if_pos h, if_pos (decide_eq_true h)]
      omega
    · rw [if_neg h, if_neg (by simpa using h), Nat.add_zero]

end QueueUses

namespace ProfileMap
variable {m : ProfileMap} {uses other : QueueUses} {es : List MapEntry}

theorem map_fst_countEarlier (uses : QueueUses) (es : List MapEntry) : (countEarlier uses es).map Prod.fst = es := by
  induction es generalizing uses with
  | nil => rfl
  | cons e es ih => rw [countEarlier, List.map_cons, ih]

/-- An entry gets the count of its queue after the entries before it. -/
theorem getElem?_countEarlier (before es : List MapEntry) (i : Nat) :
    (countEarlier (.ofEntries before) es)[i]? =
      es[i]?.map fun e => (e, (QueueUses.ofEntries (before ++ es.take i)).count e.queue) := by
  induction es generalizing before i with
  | nil => rfl
  | cons e es ih =>
    rw [countEarlier, ← QueueUses.ofEntries_append_singleton]
    cases i with
    | zero => rw [List.getElem?_cons_zero, List.getElem?_cons_zero, List.take_zero, List.append_nil, Option.map_some]
    | succ i =>
      rw [List.getElem?_cons_succ, List.getElem?_cons_succ, ih, List.take_succ_cons, List.append_assoc,
        List.singleton_append]

theorem getElem?_countEarlier_empty (es : List MapEntry) (i : Nat) :
    (countEarlier .empty es)[i]? =
      es[i]?.map fun e => (e, min 255 ((es.take i).countP fun f => f.queue = e.queue)) := by
  have h := getElem?_countEarlier [] es i
  simp only [List.nil_append, QueueUses.count_ofEntries] at h
  exact h

theorem countEarlier_congr (h : ∀ e ∈ es, uses.count e.queue = other.count e.queue) :
    countEarlier uses es = countEarlier other es := by
  induction es generalizing uses other with
  | nil => rfl
  | cons e es ih =>
    have htail : ∀ f ∈ es, (uses.add e.queue).count f.queue = (other.add e.queue).count f.queue := by
      intro f hf
      rw [QueueUses.count_add, QueueUses.count_add, h f (List.mem_cons_of_mem _ hf)]
    rw [countEarlier, countEarlier, h e List.mem_cons_self, ih htail]

/-- The entries of some queues get what they get where there are no others. -/
theorem filter_countEarlier (p : Nat → Bool) (uses : QueueUses) (es : List MapEntry) :
    (countEarlier uses es).filter (fun x => p x.1.queue) = countEarlier uses (es.filter fun e => p e.queue) := by
  induction es generalizing uses with
  | nil => rfl
  | cons e es ih =>
    rw [countEarlier, List.filter_cons, List.filter_cons, ih]
    by_cases he : p e.queue = true
    · rw [if_pos he, if_pos he, countEarlier]
    · rw [if_neg he, if_neg he]
      -- the count that is raised is of a queue to which no entry that is left goes
      refine countEarlier_congr fun f hf => ?_
      have hne : e.queue ≠ f.queue := fun heq => he (heq ▸ (List.mem_filter.mp hf).2)
      rw [QueueUses.count_add, if_neg hne]

/-- The entries of one queue are numbered in their order, up to 255. -/
theorem precedences_of_queue (es : List MapEntry) (queue : Nat) :
    ((countEarlier .empty es).filter fun x => x.1.queue = queue).map Prod.snd =
      (List.range (es.countP fun e => e.queue = queue)).map (min 255) := by
  have hall : ∀ e ∈ es.filter (fun e => e.queue = queue), e.queue = queue := fun e he =>
    of_decide_eq_true (List.mem_filter.mp he).2
  rw [filter_countEarlier (fun q => q = queue), List.countP_eq_length_filter]
  generalize es.filter (fun e => e.queue = queue) = es at hall
  refine List.ext_getElem? fun i => ?_
  rw [List.getElem?_map, getElem?_countEarlier_empty, List.getElem?_map]
  by_cases hi : i < es.length
  · have hsame : ∀ f ∈ es.take i, decide (f.queue = es[i].queue) = true := by
      intro f hf
      rw [decide_eq_true_eq, hall f (List.mem_of_mem_take hf), hall _ (List.getElem_mem hi)]
    have hcount : (es.take i).countP (fun f => f.queue = es[i].queue) = i := by
      rw [List.countP_eq_length.mpr hsame, List.length_take]
      omega
    simp [hi, hcount]
  · simp [hi]

theorem nodup_map_min_range_iff {k : Nat} : ((List.range k).map (min 255)).Nodup ↔ k ≤ 256 := by
  constructor
  · intro h
    by_contra hk
    have heq : 255 = 256 := List.inj_on_of_nodup_map h (List.mem_range.mpr (by omega)) (List.mem_range.mpr (by omega)) rfl
    omega
  · intro hk
    refine List.nodup_range.map_on fun a ha b hb heq => ?_
    have ha := List.mem_range.mp ha
    have hb := List.mem_range.mp hb
    omega

/-- Pairs differ if what goes with any one first part differs. -/
theorem nodup_map_prod_iff {α β : Type} (f : α → Nat) (g : α → β) (xs : List α) :
    (xs.map fun x => (f x, g x)).Nodup ↔ ∀ k, ((xs.filter fun x => f x = k).map g).Nodup := by
  constructor
  · intro h k
    refine List.pairwise_map.mpr (List.pairwise_filter.mpr ((List.pairwise_map.mp h).imp ?_))
    intro x y hne hx hy heq
    exact hne (Prod.ext ((of_decide_eq_true hx).trans (of_decide_eq_true hy).symm) heq)
  · intro h
    refine List.pairwise_map.mpr (List.pairwise_iff_getElem.mpr fun i j hi hj hij heq => ?_)
    obtain ⟨hkey, hvalue⟩ := Prod.mk.inj heq
    have hpairs := List.pairwise_filter.mp (List.pairwise_map.mp (h (f xs[j])))
    exact List.pairwise_iff_getElem.mp hpairs i j hi hj hij (decide_eq_true hkey) (decide_eq_true rfl) hvalue

theorem withPrecedence_of_counts (h : m.kind = .dscpGroup ∨ m.kind = .designation) :
    m.withPrecedence = countEarlier .empty m.entries := if_pos (MapKind.countsPrecedence_iff.mpr h)

/-- The entries of some queues have what they have in a map of these entries. -/
theorem filter_withPrecedence (p : Nat → Bool) (m : ProfileMap) :
    m.withPrecedence.filter (fun x => p x.1.queue) = withPrecedence ⟨m.kind, m.entries.filter fun e => p e.queue⟩ := by
  unfold withPrecedence
  split
  next => exact filter_countEarlier p _ _
  next => exact List.filter_map

/-- How a map gives drop precedences to its entries: each in its place, and in a map that counts as the
number of earlier entries for the queue, up to 255. -/
structure RanksEntries (m : ProfileMap) : Prop where
  entries : m.withPrecedence.map Prod.fst = m.entries
  counted : m.kind = .dscpGroup ∨ m.kind = .designation → ∀ i (hi : i < m.entries.length),
    m.withPrecedence[i]? =
      some (m.entries[i], min 255 ((m.entries.take i).countP fun e => e.queue = m.entries[i].queue))
  uncounted : m.kind = .dscp ∨ m.kind = .pcp → ∀ x ∈ m.withPrecedence, x.2 = 0
  distinct : m.kind = .dscpGroup ∨ m.kind = .designation →
    ((m.withPrecedence.map fun x => (x.1.queue, x.2)).Nodup ↔
      ∀ queue, (m.entries.countP fun e => e.queue = queue) ≤ 256)
  /-- Whatever entries of one queue are left out, added or moved, those of the others keep theirs. -/
  independent : ∀ (n : ProfileMap) (queue : Nat), n.kind = m.kind →
    (n.entries.filter fun e => e.queue ≠ queue) = (m.entries.filter fun e => e.queue ≠ queue) →
    (n.withPrecedence.filter fun x => x.1.queue ≠ queue) = m.withPrecedence.filter fun x => x.1.queue ≠ queue

theorem ranksEntries (m : ProfileMap) : m.RanksEntries where
  entries := by
    unfold withPrecedence
    split
    next => exact map_fst_countEarlier _ _
    next =>
      rw [List.map_map]
      exact List.map_id _
  counted h i hi := by
    rw [withPrecedence_of_counts h, getElem?_countEarlier_empty, List.getElem?_eq_getElem hi, Option.map_some]
  uncounted h x hx := by
    have hcounts : m.kind.countsPrecedence ≠ true := by
      rcases h with h | h <;> simp [h, MapKind.countsPrecedence]
    rw [withPrecedence, if_neg hcounts] at hx
    obtain ⟨e, -, rfl⟩ := List.mem_map.mp hx
    rfl
  distinct h := by
    rw [withPrecedence_of_counts h]
    refine (nodup_map_prod_iff (fun x : MapEntry × Nat => x.1.queue) Prod.snd _).trans (forall_congr' fun queue => ?_)
    rw [precedences_of_queue, nodup_map_min_range_iff]
  independent n queue hkind hrest := by
    have hn := filter_withPrecedence (fun q => q ≠ queue) n
    have hm := filter_withPrecedence (fun q => q ≠ queue) m
    rw [hkind, hrest] at hn
    exact hn.trans hm.symm

example : withPrecedence ⟨.dscpGroup, [⟨"g1", 5⟩, ⟨"g2", 5⟩, ⟨"g3", 1⟩, ⟨"g4", 5⟩]⟩ =
    [(⟨"g1", 5⟩, 0), (⟨"g2", 5⟩, 1), (⟨"g3", 1⟩, 0), (⟨"g4", 5⟩, 2)] := by decide

end ProfileMap
end QosControl
