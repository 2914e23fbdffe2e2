import QosControl.Proofs.Checked
import QosControl.Proofs.PortLines
import QosControl.Proofs.QueueTable

/-! # Thresholds below the limits they are sent with

A line that carries a limit carries the thresholds of early detection beside it. The check compares
thresholds with limits that are configured, and the lines are written with the limits in force. For a
traffic class these agree, since its thresholds are also compared with the default limit. The thresholds
of a pipe queue are compared with no limit when its class has none, and may then lie past the default.
-/
namespace QosControl
open Json

namespace PortDirective

def limit? : PortDirective → Option QueueLimit
  | .subportLimit _ _ limit _ | .queueLimit _ _ limit _ => some limit
  | _ => none

/-- The pairs of thresholds on a line with the units they are counted in. Those of a traffic class
are counted in the unit of its limit. -/
def thresholds : PortDirective → List (LimitUnit × Thresholds)
  | .subportLimit _ _ limit wred => wred.toList.map fun w => (limit.unit, w.thresholds)
  | .queueLimit _ _ _ wred => wred.flatMap fun m => m.groups.map fun g => (m.unit, g.thresholds)
  | _ => []

def Graded (d : PortDirective) : Prop := ∀ x ∈ d.thresholds, x.2.low < x.2.high

/-- Whether the thresholds on a line that are counted in the unit of its limit lie below the limit. -/
def Bounded (d : PortDirective) : Prop :=
  ∀ limit, d.limit? = some limit → ∀ x ∈ d.thresholds, x.1 = limit.unit → x.2.high < limit.size

section QueueLimit
variable {profile number : Nat} {limit : QueueLimit} {wred : List WredMap}

theorem mem_thresholds_queueLimit {x : LimitUnit × Thresholds} :
    x ∈ (queueLimit profile number limit wred).thresholds ↔
      ∃ m ∈ wred, ∃ g ∈ m.groups, (m.unit, g.thresholds) = x := by
  simp only [thresholds, List.mem_flatMap, List.mem_map]

theorem graded_queueLimit_iff : (queueLimit profile number limit wred).Graded ↔
    ∀ m ∈ wred, ∀ g ∈ m.groups, g.thresholds.low < g.thresholds.high := by
  constructor
  · intro h m hm g hg
    exact h _ (mem_thresholds_queueLimit.mpr ⟨m, hm, g, hg, rfl⟩)
  · intro h x hx
    obtain ⟨m, hm, g, hg, rfl⟩ := mem_thresholds_queueLimit.mp hx
    exact h m hm g hg

theorem bounded_queueLimit_iff : (queueLimit profile number limit wred).Bounded ↔
    ∀ m ∈ wred, m.unit = limit.unit → ∀ g ∈ m.groups, g.thresholds.high < limit.size := by
  constructor
  · intro h m hm hunit g hg
    exact h limit rfl _ (mem_thresholds_queueLimit.mpr ⟨m, hm, g, hg, rfl⟩) hunit
  · intro h l hl x hx hunit
    cases hl
    obtain ⟨m, hm, g, hg, rfl⟩ := mem_thresholds_queueLimit.mp hx
    exact h m hm hunit g hg

end QueueLimit

end PortDirective

theorem Thresholds.failures_eq_nil_iff {t : Thresholds} {limit : Option Nat} {path : String} :
    t.failures limit path = [] ↔ t.low < t.high ∧ ∀ n, limit = some n → t.high < n := by
  unfold failures
  by_cases hgraded : t.high ≤ t.low
  · simp [hgraded, Nat.not_lt.mpr hgraded]
  · cases limit with
    | none => simp [hgraded, Nat.lt_of_not_le hgraded]
    | some n => by_cases hn : n ≤ t.high <;> simp [hgraded, hn, Nat.lt_of_not_le hgraded, Nat.lt_of_not_le]

theorem WredMap.failures_eq_nil_iff {m : WredMap} {limit : Option QueueLimit} {path : String} :
    m.failures limit path = [] ↔ ∀ g ∈ m.groups, g.thresholds.low < g.thresholds.high ∧
      ∀ l, limit = some l → l.unit = m.unit → g.thresholds.high < l.size := by
  rw [failures, List.flatMap_eq_nil_iff]
  refine forall_congr' fun g => forall_congr' fun _ => ?_
  rw [Thresholds.failures_eq_nil_iff]
  simp only [Option.bind_eq_some_iff, QueueLimit.sizeIn?, Option.ite_none_right_eq_some, Option.some.injEq]
  refine and_congr_right fun _ => ⟨fun h l hl hunit => h l.size ⟨l, hl, hunit, rfl⟩, ?_⟩
  rintro h n ⟨l, hl, hunit, rfl⟩
  exact h l hl hunit

theorem LimitCapability.defaultPacketLimit_le (platform : LimitCapability) :
    defaultPacketLimit ≤ platform.defaultLimit.size := by
  cases platform <;> decide

namespace TrafficClass
variable {c : TrafficClass} {id : Nat} {path : String}

theorem thresholds_of_failures (h : c.failures id path = []) (platform : LimitCapability) {w : Wred}
    (hw : c.wred = some w) :
    w.thresholds.low < w.thresholds.high ∧ w.thresholds.high < (c.limit platform).size := by
  have hrules := List.flatMap_eq_nil_iff.mp (List.append_eq_nil_iff.mp h).2 w (by simp [hw])
  obtain ⟨hgraded, hbounded⟩ := Thresholds.failures_eq_nil_iff.mp hrules
  refine ⟨hgraded, ?_⟩
  have hlimit := hbounded _ rfl
  unfold limit
  cases hc : c.explicitLimit? with
  | none =>
    rw [hc] at hlimit
    exact Nat.lt_of_lt_of_le hlimit platform.defaultPacketLimit_le
  | some l =>
    rw [hc] at hlimit
    exact hlimit

end TrafficClass

namespace TrafficClasses
variable {cs : TrafficClasses} {path : String}

theorem graded_and_bounded_of_failures (h : cs.failures path = []) {platform : LimitCapability} {subport parent : Nat}
    {d : PortDirective} (hd : d ∈ cs.subportDirectives platform subport parent) : d.Graded ∧ d.Bounded := by
  obtain ⟨⟨id, c⟩, hc, hd⟩ := List.mem_flatMap.mp hd
  have hrules : c.failures id s!"{path}/traffic-class/{id}" = [] := List.flatMap_eq_nil_iff.mp h (id, c) hc
  rcases List.mem_cons.mp hd with rfl | hd
  · exact ⟨nofun, nofun⟩
  · obtain rfl := List.mem_singleton.mp hd
    have hpair : ∀ x ∈ c.wred.toList.map fun w => ((c.limit platform).unit, w.thresholds),
        x.2.low < x.2.high ∧ x.2.high < (c.limit platform).size := by
      intro x hx
      obtain ⟨w, hw, rfl⟩ := List.mem_map.mp hx
      exact TrafficClass.thresholds_of_failures hrules platform (Option.mem_toList.mp hw)
    refine ⟨fun x hx => (hpair x hx).1, ?_⟩
    intro limit hlimit x hx _
    cases hlimit
    exact (hpair x hx).2

end TrafficClasses

theorem Shaper.failures_trunk {globals : Profiles} {path : String} : trunk.failures globals path = [] := by
  have hdefault : trunk.defaultFailures globals path = [] :=
    defaultFailures_eq_nil_iff.mpr ⟨by decide, defines_trunk (by simp [pipes])⟩
  rw [failures, hdefault]
  rfl

/-- Whether a queue of a class without a limit of its own detects at the default limit of a platform
or past it. -/
def Queue.PastDefault (q : Queue) (classes : TrafficClasses) (platform : LimitCapability) : Prop :=
  (∀ c, classes.get? q.trafficClass = some c → c.explicitLimit? = none) ∧
    ∃ m ∈ q.wred, m.unit = platform.defaultLimit.unit ∧
      ∃ g ∈ m.groups, platform.defaultLimit.size ≤ g.thresholds.high

namespace PipeQueues
variable {qs : PipeQueues} {q : Queue} {classes : TrafficClasses} {path : String} {platform : LimitCapability}
  {number : Nat}

/-- A queue has a line with its limit unless that line says nothing that the class does not. -/
theorem forall_mem_queueDirectives_iff {c : TrafficClass} (hc : classes.get? q.trafficClass = some c)
    {P : PortDirective → Prop} (hqueue : ∀ n k w b, P (.queue n k w b))
    (hnone : q.wred = [] → P (.queueLimit number (q.qmap (qs.wrr? q) 0) (c.limit platform) [])) :
    (∀ d ∈ qs.queueDirectives platform number classes q, P d) ↔
      P (.queueLimit number (q.qmap (qs.wrr? q) 0) (c.limit platform) q.wred) := by
  simp only [queueDirectives, hc, Option.map_some, Option.getD_some, Option.bind_some, List.forall_mem_cons,
    hqueue, true_and]
  by_cases hwred : q.wred = []
  · have hline := hnone hwred
    rw [hwred]
    refine iff_of_true (fun d hd => ?_) hline
    rw [List.mem_singleton.mp (List.mem_ite_nil_right.mp hd).2]
    exact hline
  · have hsome : (!q.wred.isEmpty) = true := by simp [hwred]
    rw [hsome, Bool.true_or, if_pos rfl, List.forall_mem_singleton]

/-- The lines of a queue that breaks no rule have their thresholds in ascending order, and below the
limit unless the queue has none of its own and detects past the default. -/
theorem graded_and_bounded_iff_of_failures (h : queueFailures q classes path = []) :
    (∀ d ∈ qs.queueDirectives platform number classes q, d.Graded) ∧
      ((∀ d ∈ qs.queueDirectives platform number classes q, d.Bounded) ↔ ¬ q.PastDefault classes platform) := by
  obtain ⟨_, c, hc, hrules⟩ := queueFailures_eq_nil_iff.mp h
  have hmaps := List.flatMap_eq_nil_iff.mp (List.append_eq_nil_iff.mp hrules).2
  have hgroups : ∀ m ∈ q.wred, ∀ g ∈ m.groups, g.thresholds.low < g.thresholds.high ∧
      ∀ l, c.explicitLimit? = some l → l.unit = m.unit → g.thresholds.high < l.size := by
    intro m hm
    exact WredMap.failures_eq_nil_iff.mp (hmaps m hm)
  rw [forall_mem_queueDirectives_iff hc (fun _ _ _ _ => nofun) (fun _ => nofun),
    forall_mem_queueDirectives_iff hc (fun _ _ _ _ => nofun) (fun _ _ _ => nofun),
    PortDirective.graded_queueLimit_iff, PortDirective.bounded_queueLimit_iff, TrafficClass.limit]
  refine ⟨fun m hm g hg => (hgroups m hm g hg).1, ?_⟩
  cases hlimit : c.explicitLimit? with
  | some l =>
    refine iff_of_true (fun m hm hunit g hg => (hgroups m hm g hg).2 l hlimit hunit.symm) ?_
    rintro ⟨hnone, _⟩
    rw [hnone c hc] at hlimit
    cases hlimit
  | none =>
    have hnone : ∀ d, classes.get? q.trafficClass = some d → d.explicitLimit? = none := by
      intro d hd
      rw [← Option.some.inj (hc.symm.trans hd)]
      exact hlimit
    rw [Queue.PastDefault, and_iff_right hnone]
    simp only [Option.getD_none, not_exists, not_and, Nat.not_le]

end PipeQueues

namespace Catalogue
variable {c : Catalogue}

/-- The shapers of a configuration are the built-in one and those of its policies. -/
def HasShaper (c : Catalogue) (s : Shaper) : Prop :=
  s = Shaper.trunk ∨ ∃ name policy, c.policy? name = some policy ∧ policy.shaper = s

/-- The profiles of a configuration are the global ones and those of its shapers. -/
def HasProfile (c : Catalogue) (p : Profile) : Prop :=
  (∃ name, c.profiles.get? name = some p) ∨ ∃ s, c.HasShaper s ∧ p ∈ s.profiles

variable {shaper : Shaper} {p : Profile}

theorem exists_failures_of_hasShaper (h : c.failures = []) (hs : c.HasShaper shaper) :
    ∃ path, shaper.failures c.profiles path = [] := by
  rcases hs with rfl | ⟨name, policy, hpolicy, rfl⟩
  · exact ⟨"", Shaper.failures_trunk⟩
  · obtain ⟨o, ho, rfl⟩ := Option.map_eq_some_iff.mp hpolicy
    rw [failures, List.append_eq_nil_iff, List.append_eq_nil_iff] at h
    have hrules := List.flatMap_eq_nil_iff.mp h.1.1 o (Table.mem_values_iff.mpr ⟨name, ho⟩)
    exact ⟨_, hrules⟩

theorem exists_failures_of_hasProfile (h : c.failures = []) (hp : c.HasProfile p) : ∃ path, p.failures path = [] := by
  rcases hp with ⟨name, hname⟩ | ⟨shaper, hs, hp⟩
  · rw [failures, List.append_eq_nil_iff, List.append_eq_nil_iff] at h
    have hrules := List.flatMap_eq_nil_iff.mp h.1.2 p (Table.mem_values_iff.mpr ⟨name, hname⟩)
    exact ⟨_, hrules⟩
  · obtain ⟨path, hrules⟩ := exists_failures_of_hasShaper h hs
    rw [Shaper.failures, List.append_eq_nil_iff, List.append_eq_nil_iff] at hrules
    exact ⟨_, List.flatMap_eq_nil_iff.mp hrules.1.2 p hp⟩

theorem hasShaper_of_mem_shapers {i : Interface} {x : Subport × Shaper} (hx : x ∈ c.shapers i) : c.HasShaper x.2 := by
  refine (shaper_of_mem_shapers hx).imp_right ?_
  rintro ⟨name, _, o, ho, hshaper⟩
  exact ⟨name, o.object, by rw [policy?, ho, Option.map_some], hshaper⟩

end Catalogue

theorem Profile.thresholds_of_mem_directives {p : Profile} {platform : LimitCapability} {number parent : Nat}
    {d : PortDirective} (hd : d ∈ p.directives platform number parent) :
    d.thresholds = [] ∨ ∃ q ∈ p.queues.queues.values, d ∈ p.queues.queueDirectives platform number p.classes q := by
  simp only [directives, List.mem_cons, List.mem_append, List.mem_flatMap] at hd
  rcases hd with rfl | (hd | hd) | ⟨m, _, hd⟩
  · exact .inl rfl
  · obtain ⟨_, _, rfl⟩ := List.mem_map.mp hd
    exact .inl rfl
  · exact .inr (List.mem_flatMap.mp hd)
  · obtain ⟨_, _, hd⟩ := List.mem_flatMap.mp hd
    obtain ⟨_, _, rfl⟩ := List.mem_map.mp hd
    exact .inl rfl

namespace Snapshot
variable {s : Snapshot}

/-- Where the thresholds on the lines of an interface come from: the traffic classes of a shaper, or
the queues of a profile. -/
inductive ThresholdLine (c : Catalogue) (platform : LimitCapability) : PortDirective → Prop
  | without {d : PortDirective} : d.thresholds = [] → ThresholdLine c platform d
  | classes {shaper : Shaper} {subport parent : Nat} {d : PortDirective} : c.HasShaper shaper →
    d ∈ shaper.trafficClasses.subportDirectives platform subport parent → ThresholdLine c platform d
  | queues {p : Profile} {q : Queue} {number : Nat} {d : PortDirective} : c.HasProfile p →
    q ∈ p.queues.queues.values → d ∈ p.queues.queueDirectives platform number p.classes q → ThresholdLine c platform d

theorem thresholdLine_of_profile {c : Catalogue} {platform : LimitCapability} {p : Profile} (hp : c.HasProfile p)
    {number parent : Nat} {d : PortDirective} (hd : d ∈ p.directives platform number parent) :
    ThresholdLine c platform d := by
  rcases Profile.thresholds_of_mem_directives hd with hnone | ⟨q, hq, hd⟩
  · exact .without hnone
  · exact .queues hp hq hd

theorem thresholdLine_of_shaper {c : Catalogue} {platform : LimitCapability} {shaper : Shaper}
    (hs : c.HasShaper shaper) {subport vlan : Nat} {index : ProfileIndex} {parent : Option Nat} {d : PortDirective}
    (hd : d ∈ shaper.directives platform subport vlan index parent) : ThresholdLine c platform d := by
  simp only [Shaper.directives, List.mem_cons, List.mem_append, List.cons_append, List.append_assoc] at hd
  rcases hd with rfl | hd | rfl | hd | hd | hd | hd
  · exact .without rfl
  · exact .classes hs hd
  · exact .without rfl
  · obtain ⟨m, _, rfl⟩ := Option.map_eq_some_iff.mp (Option.mem_toList.mp hd)
    exact .without rfl
  · obtain ⟨p, hp, hd⟩ := List.mem_flatMap.mp hd
    split at hd
    · exact thresholdLine_of_profile (.inr ⟨shaper, hs, hp⟩) (List.mem_ite_nil_left.mp hd).2
    · cases hd
  · obtain ⟨pipe, _, hd⟩ := List.mem_filterMap.mp hd
    obtain ⟨n, _, rfl⟩ := Option.map_eq_some_iff.mp hd
    exact .without rfl
  · obtain ⟨r, _, hd⟩ := List.mem_flatMap.mp hd
    obtain ⟨_, _, rfl⟩ := List.mem_map.mp hd
    exact .without rfl

theorem thresholdLine_of_mem_directives {c : Catalogue} {platform : LimitCapability} {p : Port} {d : PortDirective}
    (hd : d ∈ directives c platform p) : ThresholdLine c platform d := by
  have hbind : d ∈ bindDirectives p.interface → ThresholdLine c platform d := by
    intro hd
    obtain ⟨kind, u, _, rfl⟩ := mem_bindDirectives.mp hd
    exact .without rfl
  unfold directives at hd
  cases hshapers : c.shapers p.interface with
  | nil =>
    rw [hshapers] at hd
    exact hbind hd
  | cons x rest =>
    simp only [hshapers, List.mem_cons, List.mem_append, List.not_mem_nil, or_false] at hd
    rcases hd with rfl | ((hd | hd) | hd) | rfl
    · exact .without rfl
    · obtain ⟨⟨name, number⟩, _, hd⟩ := List.mem_flatMap.mp hd
      cases hprofile : c.profiles.get? name with
      | none => simp [hprofile] at hd
      | some profile =>
        simp only [hprofile] at hd
        exact thresholdLine_of_profile (.inl ⟨name, hprofile⟩) hd
    · obtain ⟨y, hy, hd⟩ := List.mem_flatMap.mp hd
      have hy : y ∈ c.shapers p.interface := by
        rw [hshapers]
        exact hy
      exact thresholdLine_of_shaper (Catalogue.hasShaper_of_mem_shapers hy) hd
    · exact hbind hd
    · exact .without rfl

theorem graded_and_bounded_of_hasShaper (h : s.check = .ok ()) {shaper : Shaper} (hs : s.catalogue.HasShaper shaper)
    {platform : LimitCapability} {subport parent : Nat} {d : PortDirective}
    (hd : d ∈ shaper.trafficClasses.subportDirectives platform subport parent) : d.Graded ∧ d.Bounded := by
  obtain ⟨path, hrules⟩ := Catalogue.exists_failures_of_hasShaper (check_eq_ok_iff_policiesDefined.mp h).1 hs
  rw [Shaper.failures, List.append_eq_nil_iff, List.append_eq_nil_iff, List.append_eq_nil_iff] at hrules
  exact TrafficClasses.graded_and_bounded_of_failures hrules.1.1.2 hd

theorem queueFailures_of_hasProfile (h : s.check = .ok ()) {p : Profile} (hp : s.catalogue.HasProfile p) {q : Queue}
    (hq : q ∈ p.queues.queues.values) : ∃ path, PipeQueues.queueFailures q p.classes path = [] := by
  obtain ⟨path, hrules⟩ := Catalogue.exists_failures_of_hasProfile (check_eq_ok_iff_policiesDefined.mp h).1 hp
  have hqueues := (PipeQueues.failures_eq_nil_iff.mp (List.append_eq_nil_iff.mp hrules).2).1
  exact ⟨_, hqueues q hq⟩

/-- The lines of the interfaces of a configuration that passes have their thresholds in ascending order,
and below their limits if no queue goes past the default. -/
theorem graded_and_bounded_of_mem_directives (h : s.check = .ok ()) {platform : LimitCapability} {p : Port}
    {d : PortDirective} (hd : d ∈ directives s.catalogue platform p) : d.Graded ∧
      (d.Bounded ∨ ∃ profile, s.catalogue.HasProfile profile ∧
        ∃ q ∈ profile.queues.queues.values, q.PastDefault profile.classes platform) := by
  cases thresholdLine_of_mem_directives hd with
  | without hnone => exact ⟨by simp [PortDirective.Graded, hnone], .inl (by simp [PortDirective.Bounded, hnone])⟩
  | classes hs hd =>
    obtain ⟨hgraded, hbounded⟩ := graded_and_bounded_of_hasShaper h hs hd
    exact ⟨hgraded, .inl hbounded⟩
  | queues hp hq hd =>
    obtain ⟨path, hrules⟩ := queueFailures_of_hasProfile h hp hq
    obtain ⟨hgraded, hbounded⟩ := PipeQueues.graded_and_bounded_iff_of_failures hrules
    refine ⟨hgraded _ hd, or_iff_not_imp_right.mpr fun hnone => ?_⟩
    exact hbounded.mpr (fun hpast => hnone ⟨_, hp, _, hq, hpast⟩) _ hd

/-- In a configuration that passes, thresholds are in ascending order on every line, and below the
limit on the lines of traffic classes. On the line of a queue they are below the limit exactly if the
class of the queue has a limit of its own or no threshold reaches the default. -/
theorem graded_and_bounded_iff_not_pastDefault (h : s.check = .ok ()) (platform : LimitCapability) :
    (∀ shaper, s.catalogue.HasShaper shaper → ∀ subport parent,
      ∀ d ∈ shaper.trafficClasses.subportDirectives platform subport parent, d.Graded ∧ d.Bounded) ∧
    ∀ p, s.catalogue.HasProfile p → ∀ number, ∀ q ∈ p.queues.queues.values,
      (∀ d ∈ p.queues.queueDirectives platform number p.classes q, d.Graded) ∧
        ((∀ d ∈ p.queues.queueDirectives platform number p.classes q, d.Bounded) ↔
          ¬ q.PastDefault p.classes platform) := by
  refine ⟨fun shaper hs subport parent d hd => graded_and_bounded_of_hasShaper h hs hd, ?_⟩
  intro p hp number q hq
  obtain ⟨path, hrules⟩ := queueFailures_of_hasProfile h hp hq
  exact PipeQueues.graded_and_bounded_iff_of_failures hrules

def detecting (low high : Nat) : Value := Scenario.tree { Scenario.empty with
  policies := [Scenario.globalPolicy "p1" "prof" []]
  profiles := [.ofFields [("id", .string "prof"), ("bandwidth", .string "1Gbit"), ("queue", .array [
    .ofFields [("id", Scenario.word 0), ("traffic-class", Scenario.word 0), ("wred-map", .ofFields [
      ("dscp-group", .array [.ofFields [("group-name", .string "voice"), ("min-threshold", Scenario.word low),
        ("max-threshold", Scenario.word high)]])])]])]]
  ports := [Scenario.port "dp0s1" "p1" []] }

def detectingQueue (low high : Nat) : Queue := ⟨0, 0, 1, false, [⟨.packets, 10, [⟨"voice", low, high, 10⟩]⟩]⟩

theorem graded_and_bounded_iff_not_pastDefault_hundred : ∃ s p, ofTree (detecting 8 100) none = .ok s ∧
    s.check = .ok () ∧ s.catalogue.HasProfile p ∧ detectingQueue 8 100 ∈ p.queues.queues.values ∧
    (∀ d ∈ p.queues.queueDirectives .packets 0 p.classes (detectingQueue 8 100), d.Graded) ∧
    ¬ (∀ d ∈ p.queues.queueDirectives .packets 0 p.classes (detectingQueue 8 100), d.Bounded) ∧
    ∀ d ∈ p.queues.queueDirectives .bytes 0 p.classes (detectingQueue 8 100), d.Bounded := by
  have hread : (ofTree (detecting 8 100) none).toOption.any (fun s => s.check = .ok () ∧
      (s.catalogue.profiles.get? "prof").any (fun p => detectingQueue 8 100 ∈ p.queues.queues.values ∧
        (p.classes.get? 0).bind (·.explicitLimit?) = none) = true) = true := by decide +kernel
  obtain ⟨s, hs, hfacts⟩ := (Option.any_eq_true _ _).mp hread
  obtain ⟨hcheck, hprofile⟩ := of_decide_eq_true hfacts
  obtain ⟨p, hp, hfacts⟩ := (Option.any_eq_true _ _).mp hprofile
  obtain ⟨hq, hnone⟩ := of_decide_eq_true hfacts
  have hprofile : s.catalogue.HasProfile p := .inl ⟨"prof", hp⟩
  have hpast : (detectingQueue 8 100).PastDefault p.classes .packets := by
    refine ⟨fun c hc => ?_, _, List.mem_singleton_self _, rfl, _, List.mem_singleton_self _, by decide⟩
    have hc : p.classes.get? 0 = some c := hc
    rw [hc] at hnone
    exact hnone
  have hbytes : ¬ (detectingQueue 8 100).PastDefault p.classes .bytes := by
    rintro ⟨_, m, hm, hunit, _⟩
    rw [List.mem_singleton.mp hm] at hunit
    cases hunit
  have hpackets := (graded_and_bounded_iff_not_pastDefault hcheck .packets).2 p hprofile 0 _ hq
  refine ⟨s, p, Outcome.eq_ok_of_toOption hs, hcheck, hprofile, hq, hpackets.1, ?_, ?_⟩
  · exact fun hall => hpackets.2.mp hall hpast
  · exact ((graded_and_bounded_iff_not_pastDefault hcheck .bytes).2 p hprofile 0 _ hq).2.mpr hbytes

/-- A configuration that passes has a line whose threshold of 100 packets is above its limit of 64. -/
theorem exists_not_bounded : ∃ s p d, ofTree (detecting 8 100) none = .ok s ∧ s.check = .ok () ∧
    s.catalogue.profiles.get? "prof" = some p ∧ d ∈ p.queues.directives .packets 0 p.classes ∧
    d.text = "param 0 0 limit packets 64 wred_weight 10 dscp-group voice 8 100 10" ∧ ¬ d.Bounded := by
  have hread : (ofTree (detecting 8 100) none).toOption.any (fun s => s.check = .ok () ∧
      (s.catalogue.profiles.get? "prof").any (fun p =>
        .queueLimit 0 0 ⟨.packets, 64⟩ (detectingQueue 8 100).wred ∈
          p.queues.directives .packets 0 p.classes) = true) = true := by decide +kernel
  obtain ⟨s, hs, hfacts⟩ := (Option.any_eq_true _ _).mp hread
  obtain ⟨hcheck, hprofile⟩ := of_decide_eq_true hfacts
  obtain ⟨p, hp, hd⟩ := (Option.any_eq_true _ _).mp hprofile
  refine ⟨s, p, _, Outcome.eq_ok_of_toOption hs, hcheck, hp, of_decide_eq_true hd, by decide +kernel, ?_⟩
  intro hbounded
  have hlt : 100 < 64 := hbounded ⟨.packets, 64⟩ rfl (.packets, ⟨8, 100, 10⟩) (List.mem_singleton_self _) rfl
  exact absurd hlt (by decide)

end Snapshot
end QosControl
