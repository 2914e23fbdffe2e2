import QosControl.Proofs.Balance
import QosControl.Proofs.Teardown

/-! # Which changes of shared objects are announced

The dataplanes are told about a shared object by commands on the path of the object, which are the lines
that define it. An object that is bound and has another definition is overwritten by its new lines, and
is announced if there are any. An action group has one line, and the lines of an ingress or egress map
have an end mark. A mark map has only the lines of its entries, so that one that lost all of them is
neither defined anew nor removed.
-/
namespace QosControl
open Json

namespace Instruction
variable {kind : ObjectKind} {name : String}

theorem toList_objectPath (kind : ObjectKind) (name : String) : (objectPath kind name).toList =
    "qos/global-object/".toList ++ (kind.keyword.toList ++ "/".toList ++ name.toList) := by
  unfold objectPath
  rw [String.toList_append, String.toList_append, String.toList_append, List.append_assoc, List.append_assoc,
    List.append_assoc]
  rfl

theorem toList_switchPath (switch : PlatformSwitch) :
    (switchPath switch).toList = "qos/global-object/".toList ++ switch.keyword.toList := by
  unfold switchPath
  rw [String.toList_append]
  rfl

theorem objectPath_inj {k : ObjectKind} {n : String} (h : objectPath k n = objectPath kind name) :
    k = kind ∧ n = name := by
  have hchars := congrArg String.toList h
  rw [toList_objectPath, toList_objectPath, List.append_right_inj] at hchars
  cases k <;> cases kind <;> simp [ObjectKind.keyword, PortMapKind.keyword] at hchars ⊢
  all_goals exact String.toList_inj.mp hchars

theorem switchPath_ne_objectPath (switch : PlatformSwitch) : switchPath switch ≠ objectPath kind name := by
  intro h
  have hchars := congrArg String.toList h
  rw [toList_switchPath, toList_objectPath, List.append_right_inj] at hchars
  cases switch <;> cases kind <;> simp [PlatformSwitch.keyword, ObjectKind.keyword, PortMapKind.keyword] at hchars

theorem path_commit_ne_objectPath : commit.command.path ≠ objectPath kind name := by
  intro h
  have hchars := congrArg String.toList h
  rw [toList_objectPath] at hchars
  simp [command] at hchars

/-- An interface that is called like the target of all dataplanes has other paths than objects. -/
theorem path_port_ne_objectPath (d : PortDirective) : (d.command everyTarget).path ≠ objectPath kind name := by
  intro h
  have hchars := congrArg String.toList h
  rw [toList_objectPath] at hchars
  cases hsteps : d.pathSteps <;>
    simp [PortDirective.command, everyTarget, String.toList_intercalate, List.intercalate, hsteps] at hchars

end Instruction

/-- Whether a command tells all dataplanes about the configuration of an object. -/
def Command.Announces (c : Command) (kind : ObjectKind) (name : String) : Prop :=
  c.operation = .set ∧ c.target = everyTarget ∧ c.path = Instruction.objectPath kind name

instance (c : Command) (kind : ObjectKind) (name : String) : Decidable (c.Announces kind name) :=
  inferInstanceAs (Decidable (_ ∧ _ ∧ _))

theorem Instruction.announces_iff {i : Instruction} {kind : ObjectKind} {name : String} :
    i.command.Announces kind name ↔ ∃ body, i = .define kind name body := by
  constructor
  · rintro ⟨hset, htarget, hpath⟩
    cases i with
    | port ifname d =>
      have hname : ifname = everyTarget := htarget
      subst hname
      exact absurd hpath (path_port_ne_objectPath d)
    | define k n body =>
      obtain ⟨rfl, rfl⟩ := objectPath_inj hpath
      exact ⟨body, rfl⟩
    | remove => cases hset
    | setSwitch switch => exact absurd hpath (switchPath_ne_objectPath switch)
    | clearSwitch => cases hset
    | commit => exact absurd hpath path_commit_ne_objectPath
  · rintro ⟨body, rfl⟩
    exact ⟨rfl, rfl, rfl⟩

namespace Catalogue
variable {c : Catalogue} {kind : ObjectKind} {name : String} {o : ObjectEntry}

/-- Only a mark map may have no lines, and has none if it has no entries. -/
theorem lines_eq_nil_iff (ho : c.object? kind name = some o) : o.lines = [] ↔
    kind = .markMap ∧ ∃ m, c.markMaps.get? name = some m ∧ m.object.entries = [] := by
  constructor
  · intro hnil
    by_cases hkind : kind = .markMap
    · subst hkind
      obtain ⟨m, hm, rfl⟩ := Option.map_eq_some_iff.mp ho
      exact ⟨rfl, m, hm, List.map_eq_nil_iff.mp hnil⟩
    · exact absurd hnil (lines_ne_nil hkind ho)
  · rintro ⟨rfl, m, hm, hnil⟩
    rw [object?, hm] at ho
    cases ho
    exact List.map_eq_nil_iff.mpr hnil

end Catalogue

namespace Plan
open Snapshot NamedObject
variable {old new : Snapshot} {platform : LimitCapability} {kind : ObjectKind} {name : String} {o : ObjectEntry}

theorem exists_announces_iff : (∃ c ∈ (between old new platform).commands, c.Announces kind name) ↔
    ∃ body, .define kind name body ∈ (between old new platform).instructions := by
  constructor
  · rintro ⟨c, hc, hannounces⟩
    obtain ⟨i, hi, rfl⟩ := List.mem_map.mp hc
    obtain ⟨body, rfl⟩ := Instruction.announces_iff.mp hannounces
    exact ⟨body, hi⟩
  · rintro ⟨body, hbody⟩
    exact ⟨_, List.mem_map_of_mem hbody, Instruction.announces_iff.mpr ⟨body, rfl⟩⟩

namespace Stages
variable {is : List Instruction} (s : Stages old new platform is)
include s

theorem define_mem_iff (hr : old.catalogue.Redefines new.catalogue kind name)
    (ho : new.catalogue.object? kind name = some o) (hu : o.users ≠ []) {body : String} :
    .define kind name body ∈ is ↔ body ∈ o.lines := by
  have hdeferred : o.deferred = false := by simp [ObjectEntry.deferred, hu]
  have hincoming : ⟨kind, name, o⟩ ∈ old.catalogue.incoming new.catalogue :=
    Catalogue.mem_incoming.mpr ⟨ho, hdeferred, fun _ _ => .inr hr⟩
  obtain ⟨before, after, his, hbefore, hafter⟩ := s.exists_of_incoming hincoming
  constructor
  · intro h
    rw [his] at h
    rcases List.mem_append.mp h with h | h
    · rcases List.mem_append.mp h with h | h
      · exact absurd h (hbefore body)
      · obtain ⟨line, hline, heq⟩ := mem_creation.mp h
        cases heq
        exact hline
    · exact absurd (.inr ⟨body, rfl⟩) (hafter _ h)
  · intro hbody
    rw [his]
    exact List.mem_append_left _ (List.mem_append_right _ (mem_creation.mpr ⟨body, hbody, rfl⟩))

end Stages

/-- The change of a bound object is announced unless the object is a mark map that has no entries now. -/
theorem announced_iff_not_empty_markMap (hold : old.Read) (hnew : new.Read) (platform : LimitCapability)
    (hr : old.catalogue.Redefines new.catalogue kind name) (ho : new.catalogue.object? kind name = some o)
    (hu : o.users ≠ []) : (∃ c ∈ (between old new platform).commands, c.Announces kind name) ↔
      ¬ (kind = .markMap ∧ ∃ m, new.catalogue.markMaps.get? name = some m ∧ m.object.entries = []) := by
  obtain ⟨s⟩ := nonempty_stages hold.linked.named hnew.linked.named platform
  rw [exists_announces_iff, ← Catalogue.lines_eq_nil_iff ho]
  simp only [s.define_mem_iff hr ho hu]
  exact ⟨fun ⟨_, hbody⟩ => List.ne_nil_of_mem hbody, List.exists_mem_of_ne_nil _⟩

theorem announced_iff_not_empty_markMap_remarked :
    let before := marked [("mark-map", .string "mm")] [Scenario.markMap "mm" "voice" 3]
    let after := marked [("mark-map", .string "mm")] [Scenario.markMap "mm" "voice" 5]
    before.catalogue.Redefines after.catalogue .markMap "mm" ∧
      ∃ c ∈ (between before after .packets).commands, c.Announces .markMap "mm" := by
  intro before after
  have hfacts : (before.catalogue.markMaps.get? "mm").any (fun m => (after.catalogue.markMaps.get? "mm").any
      fun n => m.object ≠ n.object ∧ n.users ≠ [] ∧ n.object.entries ≠ []) = true := by decide +kernel
  obtain ⟨m, hm, hfacts⟩ := (Option.any_eq_true _ _).mp hfacts
  obtain ⟨n, hn, hfacts⟩ := (Option.any_eq_true _ _).mp hfacts
  obtain ⟨hne, husers, hentries⟩ := of_decide_eq_true hfacts
  have hr : before.catalogue.Redefines after.catalogue .markMap "mm" := ⟨m, n, hm, hn, hne⟩
  have ho : after.catalogue.object? .markMap "mm" = some n.entry := by rw [Catalogue.object?, hn, Option.map_some]
  refine ⟨hr, (announced_iff_not_empty_markMap (read_orEmpty _ _) (read_orEmpty _ _) .packets hr ho husers).mpr ?_⟩
  rintro ⟨_, k, hk, hnil⟩
  cases hn.symm.trans hk
  exact hentries hnil

/-- A mark map whose only group is no longer known has no entries, and the stream says nothing of it. -/
theorem exists_redefines_not_announced : ∃ old new o, old.Read ∧ new.Read ∧ old.check = .ok () ∧
    new.check = .ok () ∧ old.catalogue.Redefines new.catalogue .markMap "mm" ∧
    new.catalogue.object? .markMap "mm" = some o ∧ o.users ≠ [] ∧
    ∀ c ∈ (between old new .packets).commands, ¬ c.Announces .markMap "mm" := by
  let before := marked [("mark-map", .string "mm")] [Scenario.markMap "mm" "voice" 3]
  let after := marked [("mark-map", .string "mm")] [Scenario.markMap "mm" "data" 3]
  have hfacts : (before.catalogue.markMaps.get? "mm").any (fun m => (after.catalogue.markMaps.get? "mm").any
      fun n => m.object ≠ n.object ∧ n.users ≠ []) = true ∧ before.failures = [] ∧ after.failures = [] ∧
      ∀ c ∈ (between before after .packets).commands, ¬ c.Announces .markMap "mm" := by decide +kernel
  obtain ⟨hfacts, hbefore, hafter, hsilent⟩ := hfacts
  obtain ⟨m, hm, hfacts⟩ := (Option.any_eq_true _ _).mp hfacts
  obtain ⟨n, hn, hfacts⟩ := (Option.any_eq_true _ _).mp hfacts
  obtain ⟨hne, husers⟩ := of_decide_eq_true hfacts
  have ho : after.catalogue.object? .markMap "mm" = some n.entry := by rw [Catalogue.object?, hn, Option.map_some]
  exact ⟨before, after, n.entry, read_orEmpty _ _, read_orEmpty _ _, check_eq_ok_iff.mpr hbefore,
    check_eq_ok_iff.mpr hafter, ⟨m, n, hm, hn, hne⟩, ho, husers, hsilent⟩

end Plan
end QosControl
