import QosControl.Proofs.Balance

/-! # Logs that track a snapshot

A log is all that was delivered since nothing was there. It tracks a snapshot when the
maps that ports bind are there exactly as far as they are live, with the lines that the
snapshot gives them. A plan from a tracked snapshot to another one extends the log to
one that tracks the other.
-/
namespace QosControl

def Ledger.none : Ledger := fun _ _ => false

/-- The lines of an object were delivered in one piece, and nothing touched it since. -/
def InForce (log : List Instruction) (kind : ObjectKind) (name : String) (lines : List String) : Prop :=
  ∃ before after, log = before ++ lines.map (.define kind name) ++ after ∧
    ∀ i ∈ after, ¬ i.Touches kind name

section InForce
variable {log is : List Instruction} {kind : ObjectKind} {name : String} {lines : List String}

theorem InForce.append (h : InForce log kind name lines) (his : ∀ i ∈ is, ¬ i.Touches kind name) :
    InForce (log ++ is) kind name lines := by
  obtain ⟨before, after, rfl, hafter⟩ := h
  refine ⟨before, after ++ is, by simp only [List.append_assoc], fun i hi => ?_⟩
  exact (List.mem_append.mp hi).elim (hafter i) (his i)

theorem InForce.prepend (log : List Instruction) (h : InForce is kind name lines) :
    InForce (log ++ is) kind name lines := by
  obtain ⟨before, after, rfl, hafter⟩ := h
  exact ⟨log ++ before, after, by simp only [List.append_assoc], hafter⟩

theorem InForce.replay (h : InForce log kind name lines) (hlines : lines ≠ []) (l : Ledger) :
    l.replay log kind name = true := by
  obtain ⟨before, after, rfl, hafter⟩ := h
  rw [Ledger.replay_append, Ledger.replay_append, Ledger.replay_of_not_touches hafter, Ledger.replay_define]
  simp [hlines]

theorem Ledger.replay_congr {l k : Ledger} (is : List Instruction) (h : l kind name = k kind name) :
    l.replay is kind name = k.replay is kind name := by
  induction is generalizing l k with
  | nil => exact h
  | cons i is ih =>
    refine ih ?_
    cases i <;> simp only [step, h]

end InForce

/-- A log after which the maps of a snapshot are there as far as they are live, as they are. -/
structure Tracks (s : Snapshot) (log : List Instruction) : Prop where
  live : ∀ (m : PortMapKind) name, Ledger.none.replay log m.objectKind name = s.catalogue.live m.objectKind name
  current : ∀ (m : PortMapKind) name o, s.catalogue.object? m.objectKind name = some o → o.deferred = false →
    InForce log m.objectKind name o.lines

theorem PortMapKind.objectKind_ne_markMap (m : PortMapKind) : m.objectKind ≠ .markMap := by
  cases m <;> exact nofun

namespace Catalogue
variable {a b : Catalogue} {kind : ObjectKind} {name : String}

/-- Objects that are not redefined have the same lines and are held back alike. -/
theorem lines_eq_of_not_redefines {o t : ObjectEntry} (ho : a.object? kind name = some o)
    (ht : b.object? kind name = some t) (h : ¬ a.Redefines b kind name) :
    o.lines = t.lines ∧ o.deferrable = t.deferrable := by
  cases kind <;>
  · obtain ⟨p, hp, rfl⟩ := Option.map_eq_some_iff.mp ho
    obtain ⟨q, hq, rfl⟩ := Option.map_eq_some_iff.mp ht
    have hobject : p.object = q.object := by
      by_contra hne
      exact h ⟨p, q, hp, hq, hne⟩
    exact ⟨congrArg Provisioned.lines hobject, congrArg Provisioned.deferrable hobject⟩

end Catalogue

namespace Tracks
open Plan NamedObject
variable {s t : Snapshot} {log : List Instruction}

/-- The stream of a plan extends a log that tracks the old snapshot to one that tracks the new one. -/
theorem append_between (h : Tracks s log) (hs : s.Read) (ht : t.Read) (platform : LimitCapability) :
    Tracks t (log ++ (between s t platform).instructions) := by
  obtain ⟨stages⟩ := nonempty_stages hs.linked.named ht.linked.named platform
  refine ⟨fun m name => ?_, fun m name o ho hd => ?_⟩
  · rw [Ledger.replay_append, Ledger.replay_congr _ (h.live m name)]
    have hlive := stages.replay_eq_live m.objectKind_ne_markMap name stages.idle_ports
    rwa [Stages.front, ← stages.eq] at hlive
  · by_cases hin : (m.objectKind, name) ∈ (s.catalogue.incoming t.catalogue).map key
    · obtain ⟨x, hx, hk⟩ := List.mem_map.mp hin
      obtain ⟨kind, n, entry⟩ := x
      obtain ⟨rfl, rfl⟩ : kind = m.objectKind ∧ n = name := Prod.mk.inj hk
      cases (Catalogue.mem_incoming.mp hx).1.symm.trans ho
      obtain ⟨before, after, his, _, hafter⟩ := stages.exists_of_incoming hx
      exact InForce.prepend log ⟨before, after, his, hafter⟩
    · -- a live map that does not come was live before, and the stream does not touch it
      have hlive := Catalogue.live_eq_true_iff.mpr ⟨o, ho, hd⟩
      obtain ⟨hlive, hout⟩ := ((Catalogue.live_iff s.catalogue t.catalogue _ _).mp hlive).resolve_right hin
      obtain ⟨p, hp, hpd⟩ := Catalogue.live_eq_true_iff.mp hlive
      have hsame : ¬ s.catalogue.Redefines t.catalogue m.objectKind name := by
        intro hr
        refine hin (Catalogue.mem_keys_incoming.mpr ⟨o, ho, hd, fun _ _ => .inr hr⟩)
      rw [← (Catalogue.lines_eq_of_not_redefines hp ho hsame).1]
      exact (h.current m name p hp hpd).append (stages.not_touches hout hin)

theorem append_idle (h : Tracks s log) {is : List Instruction} (his : Idle is) : Tracks s (log ++ is) where
  live m name := by rw [Ledger.replay_append, his.replay, h.live]
  current m name o ho hd := (h.current m name o ho hd).append fun i hi => his i hi _ _

end Tracks
end QosControl
