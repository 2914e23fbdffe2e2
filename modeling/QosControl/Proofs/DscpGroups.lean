import QosControl.Proofs.CodePoints
import QosControl.Proofs.Idempotence
import QosControl.Proofs.Rereading
import QosControl.Scenario

/-! # DSCP groups as sets

A DSCP group is the ascending list of the code points that its members denote, so it does not show how
the members are written. Two trees whose groups are the same sets have the same outcome, and there is
nothing to do between them.
-/
namespace QosControl
open Json CodePoint

/-- Whether a member of a group denotes a code point; only texts and numbers do. -/
inductive MemberDenotes : Value → Nat → Prop
  | string {s : String} {n : Nat} : Denotes s.toList n → MemberDenotes (.string s) n
  | number {m : Number} {n : Nat} : Denotes m.text.toList n → MemberDenotes (.number m) n

theorem mem_memberCodePoints_iff {v : Value} {n : Nat} : n ∈ memberCodePoints v ↔ MemberDenotes v n := by
  constructor
  · intro h
    cases v with
    | string s => exact .string (mem_codePoints?_iff.mp h)
    | number m => exact .number (mem_codePoints?_iff.mp h)
    | null | bool _ | array _ | object _ => cases h
  · rintro (h | h) <;> exact mem_codePoints?_iff.mpr h

namespace Catalogue
variable {t u v w : Value} {name : String} {ns : List Nat} {n : Nat}

def groupEntries (t : Value) : List Value :=
  ((((t.field? Schema.resources).getD .null).field? Schema.resourceGroup).getD .null).items Schema.dscpGroup

/-- Whether an entry is the one of its name that counts, which is the last. -/
def Declares (t : Value) (name : String) (v : Value) : Prop :=
  ∃ before after, groupEntries t = before ++ v :: after ∧ v.text? "group-name" = some name ∧
    ∀ w ∈ after, w.text? "group-name" ≠ some name

def InGroup (t : Value) (name : String) (n : Nat) : Prop :=
  ∃ v, Declares t name v ∧ ∃ member ∈ v.items "dscp", MemberDenotes member n

theorem declares_iff_find? : Declares t name v ↔
    (groupEntries t).reverse.find? (fun w => w.text? "group-name" = some name) = some v := by
  rw [List.find?_eq_some_iff_append, Declares]
  constructor
  · rintro ⟨before, after, heq, hname, hafter⟩
    refine ⟨decide_eq_true hname, after.reverse, before.reverse, ?_, fun w hw => ?_⟩
    · rw [heq, List.reverse_append, List.reverse_cons, List.append_assoc, List.singleton_append]
    · simpa using hafter w (List.mem_reverse.mp hw)
  · rintro ⟨hname, after, before, heq, hafter⟩
    refine ⟨before.reverse, after.reverse, ?_, of_decide_eq_true hname, fun w hw => ?_⟩
    · rw [← List.reverse_reverse (groupEntries t), heq, List.reverse_append, List.reverse_cons, List.append_assoc,
        List.singleton_append]
    · simpa using hafter w (List.mem_reverse.mp hw)

theorem Declares.unique (hv : Declares t name v) (hw : Declares t name w) : v = w := by
  rw [declares_iff_find?] at hv hw
  exact Option.some.inj (hv.symm.trans hw)

theorem get?_dscpGroups_eq_some_iff : (dscpGroups t).get? name = some ns ↔
    ∃ v, Declares t name v ∧ sortedKeys ((v.items "dscp").flatMap memberCodePoints) = ns := by
  have hentry : (fun w : Value => ((w.text? "group-name").map fun name =>
      (name, sortedKeys ((w.items "dscp").flatMap memberCodePoints))).any fun e => decide (e.1 = name)) =
      fun w => decide (w.text? "group-name" = some name) := by
    funext w
    cases w.text? "group-name" <;> simp
  rw [dscpGroups_eq, DscpGroups.ofValues, Table.get?_ofList, ← groupEntries, ← List.filterMap_reverse,
    List.find?_filterMap, hentry]
  simp only [declares_iff_find?]
  constructor
  · intro h
    obtain ⟨e, he, rfl⟩ := Option.map_eq_some_iff.mp h
    obtain ⟨v, hv, he⟩ := Option.bind_eq_some_iff.mp he
    obtain ⟨_, -, rfl⟩ := Option.map_eq_some_iff.mp he
    exact ⟨v, hv, rfl⟩
  · rintro ⟨v, hv, rfl⟩
    have hname : v.text? "group-name" = some name := by simpa using List.find?_some hv
    rw [hv, Option.bind_some, hname]
    rfl

theorem Declares.mem_iff (h : Declares t name v) :
    n ∈ sortedKeys ((v.items "dscp").flatMap memberCodePoints) ↔ InGroup t name n := by
  simp only [mem_sortedKeys, List.mem_flatMap, mem_memberCodePoints_iff]
  constructor
  · exact fun hn => ⟨v, h, hn⟩
  · rintro ⟨w, hw, hn⟩
    rwa [h.unique hw]

/-- How the groups of a tree are resolved: as ascending lists of what their members denote. -/
structure ResolvesGroups (t : Value) : Prop where
  declared : ∀ name, (dscpGroups t).contains name = true ↔ ∃ v, Declares t name v
  ascending : ∀ name ns, (dscpGroups t).get? name = some ns → ns.Pairwise (· < ·)
  bounded : ∀ name ns, (dscpGroups t).get? name = some ns → ∀ n ∈ ns, n ≤ 63
  mem_iff : ∀ name ns, (dscpGroups t).get? name = some ns → ∀ n, n ∈ ns ↔ InGroup t name n

theorem InGroup.le (h : InGroup t name n) : n ≤ 63 := by
  obtain ⟨_, -, _, -, hdenotes | hdenotes⟩ := h <;> exact hdenotes.le

theorem resolvesGroups (t : Value) : ResolvesGroups t where
  declared name := by
    rw [Table.contains_iff]
    constructor
    · rintro ⟨ns, hns⟩
      obtain ⟨v, hv, -⟩ := get?_dscpGroups_eq_some_iff.mp hns
      exact ⟨v, hv⟩
    · rintro ⟨v, hv⟩
      exact ⟨_, get?_dscpGroups_eq_some_iff.mpr ⟨v, hv, rfl⟩⟩
  ascending name ns h := by
    obtain ⟨v, -, rfl⟩ := get?_dscpGroups_eq_some_iff.mp h
    exact ascending_sortedKeys _
  bounded name ns h n hn := by
    obtain ⟨v, hv, rfl⟩ := get?_dscpGroups_eq_some_iff.mp h
    exact (hv.mem_iff.mp hn).le
  mem_iff name ns h n := by
    obtain ⟨v, hv, rfl⟩ := get?_dscpGroups_eq_some_iff.mp h
    exact hv.mem_iff

/-- Whether two trees differ in how their DSCP groups are written alone: they have groups of the same
names, and a group is the same set in both. -/
structure SameGroups (t u : Value) : Prop where
  rest : ∀ key, key ≠ Schema.resources → t.field? key = u.field? key
  declared : ∀ name, (∃ v, Declares t name v) ↔ ∃ v, Declares u name v
  mem_iff : ∀ name n, InGroup t name n ↔ InGroup u name n

theorem SameGroups.symm (h : SameGroups t u) : SameGroups u t where
  rest key hkey := (h.rest key hkey).symm
  declared name := (h.declared name).symm
  mem_iff name n := (h.mem_iff name n).symm

theorem SameGroups.get?_dscpGroups (h : SameGroups t u) (hns : (dscpGroups t).get? name = some ns) :
    (dscpGroups u).get? name = some ns := by
  obtain ⟨v, hv, rfl⟩ := get?_dscpGroups_eq_some_iff.mp hns
  obtain ⟨w, hw⟩ := (h.declared name).mp ⟨v, hv⟩
  refine get?_dscpGroups_eq_some_iff.mpr ⟨w, hw, sortedKeys_congr fun n => ?_⟩
  rw [← mem_sortedKeys, hw.mem_iff, ← h.mem_iff, ← hv.mem_iff, mem_sortedKeys]

theorem SameGroups.dscpGroups_eq (h : SameGroups t u) : dscpGroups t = dscpGroups u :=
  Table.eq_of_get? fun _ => Option.ext fun _ => ⟨h.get?_dscpGroups, h.symm.get?_dscpGroups⟩

theorem inGroup_iff : InGroup t name n ↔ ∃ ns, (dscpGroups t).get? name = some ns ∧ n ∈ ns := by
  constructor
  · intro h
    obtain ⟨v, hv, -⟩ := id h
    have hns := get?_dscpGroups_eq_some_iff.mpr ⟨v, hv, rfl⟩
    exact ⟨_, hns, ((resolvesGroups t).mem_iff name _ hns n).mpr h⟩
  · rintro ⟨ns, hns, hn⟩
    exact ((resolvesGroups t).mem_iff name ns hns n).mp hn

/-- Two trees have the same sets as groups only if their groups are resolved to the same lists. -/
theorem sameGroups_iff : SameGroups t u ↔
    (∀ key, key ≠ Schema.resources → t.field? key = u.field? key) ∧ dscpGroups t = dscpGroups u := by
  refine ⟨fun h => ⟨h.rest, h.dscpGroups_eq⟩, fun ⟨hrest, heq⟩ => ⟨hrest, fun name => ?_, fun name n => ?_⟩⟩
  · rw [← (resolvesGroups t).declared, heq, (resolvesGroups u).declared]
  · rw [inGroup_iff, heq, inGroup_iff]

theorem SameGroups.ofTree_eq (h : SameGroups t u) : Catalogue.ofTree t = Catalogue.ofTree u := by
  rw [Catalogue.ofTree, Catalogue.ofTree, h.dscpGroups_eq, h.rest Schema.policy (by decide)]

end Catalogue

namespace Snapshot
open Catalogue
variable {t u : Value}

theorem ofTree_of_sameGroups (h : SameGroups t u) (membership : Option Membership) :
    ofTree t membership = ofTree u membership := by
  rw [ofTree, ofTree, h.ofTree_eq, Roster.ofTree, Roster.ofTree, h.rest Schema.interfaces (by decide)]

/-- What is the same of two trees that differ in how their DSCP groups are written. -/
structure ReadAlike (t u : Value) : Prop where
  markMap : ∀ v, MarkMap.ofValue (dscpGroups t) v = MarkMap.ofValue (dscpGroups u) v
  ingressMap : ∀ v, IngressMap.ofValue (dscpGroups t) v = IngressMap.ofValue (dscpGroups u) v
  egressMap : ∀ v, EgressMap.ofValue (dscpGroups t) v = EgressMap.ofValue (dscpGroups u) v
  outcome : ∀ membership, ofTree t membership = ofTree u membership
  creations : ∀ membership old new, ofTree t membership = .ok old → ofTree u membership = .ok new →
    old.catalogue.markMaps.values.map Shared.creation = new.catalogue.markMaps.values.map Shared.creation ∧
    old.catalogue.ingressMaps.values.map Shared.creation = new.catalogue.ingressMaps.values.map Shared.creation ∧
    old.catalogue.egressMaps.values.map Shared.creation = new.catalogue.egressMaps.values.map Shared.creation
  commands : ∀ membership old new, ofTree t membership = .ok old → ofTree u membership = .ok new →
    ∀ platform, (Plan.between old new platform).commands = []

theorem readAlike_of_sameGroups (h : SameGroups t u) : ReadAlike t u := by
  have hsame : ∀ membership old new, ofTree t membership = .ok old → ofTree u membership = .ok new → old = new := by
    intro membership old new hold hnew
    rw [ofTree_of_sameGroups h, hnew] at hold
    cases hold
    rfl
  refine ⟨fun v => ?_, fun v => ?_, fun v => ?_, ofTree_of_sameGroups h, ?_, ?_⟩
  · rw [h.dscpGroups_eq]
  · rw [h.dscpGroups_eq]
  · rw [h.dscpGroups_eq]
  · intro membership old new hold hnew
    cases hsame membership old new hold hnew
    exact ⟨rfl, rfl, rfl⟩
  · intro membership old new hold hnew platform
    cases hsame membership old new hold hnew
    exact Plan.commands_self (Read.tree hnew).linked platform

/-- DSCP groups are canonical: a range denotes the code points between its ends, a group is the ascending
list of what its members denote, and trees with the same groups have the same outcome. -/
theorem dscpGroups_canonical :
    (∀ {xs ys : List Char} {a b : Nat}, Spells xs a → Spells ys b →
      codePoints? (String.ofList (xs ++ '-' :: ys)) = if a ≤ b then some (List.range' a (b + 1 - a)) else none) ∧
    (∀ t, ResolvesGroups t) ∧ ∀ t u, SameGroups t u → ReadAlike t u :=
  ⟨codePoints?_range, resolvesGroups, fun _ _ => readAlike_of_sameGroups⟩

/-- A tree with the given groups, whose names a mark map and an ingress map use. -/
def grouped (groups : List Value) : Value := .object [
  (Schema.interfaces, .ofFields [(Schema.dataplane, .array [
    Scenario.port "dp0s1" "p1" [(Schema.ingressMap, "i1")]])]),
  (Schema.policy, .ofFields [(Schema.qos, .ofFields [
    ("name", .array [Scenario.simplePolicy "p1" "1Gbit" "pipe" "1Gbit"]),
    ("mark-map", .array [Scenario.markMap "m1" "low" 3]),
    ("ingress-map", .array [Scenario.ingressMap "i1" "high" 2])])]),
  (Schema.resources, .ofFields [(Schema.resourceGroup, .ofFields [(Schema.dscpGroup, .array groups)])])]

theorem field?_grouped (groups other : List Value) {key : String} (h : key ≠ Schema.resources) :
    (grouped groups).field? key = (grouped other).field? key := by
  simp [grouped, Value.field?, List.find?_cons, h.symm]

theorem dscpGroups_canonical_grouped :
    let t := grouped [Scenario.dscpGroup "low" ["cs1-10"], Scenario.dscpGroup "high" ["ef", "46"]]
    let u := grouped [Scenario.dscpGroup "high" [" EF "], Scenario.dscpGroup "low" ["9 - AF11", "+08", "9", "11-10"]]
    (dscpGroups t).get? "low" = some [8, 9, 10] ∧ SameGroups t u ∧ ∃ old new, ofTree t none = .ok old ∧
      ofTree u none = .ok new ∧ old.ports ≠ [] ∧ (Plan.between old new .packets).commands = [] := by
  intro t u
  have hgroups : (dscpGroups t).get? "low" = some [8, 9, 10] ∧ dscpGroups t = dscpGroups u := by decide +kernel
  have hsame : SameGroups t u := sameGroups_iff.mpr ⟨fun _ => field?_grouped _ _, hgroups.2⟩
  have hread : (ofTree t none).toOption.any (fun s => !s.ports.isEmpty) = true := by decide +kernel
  obtain ⟨old, hold, hports⟩ := (Option.any_eq_true _ _).mp hread
  have hold := Outcome.eq_ok_of_toOption hold
  have halike := dscpGroups_canonical.2.2 t u hsame
  have hnew : ofTree u none = .ok old := (halike.outcome none).symm.trans hold
  have hnil := halike.commands none old old hold hnew .packets
  exact ⟨hgroups.1, hsame, old, old, hold, hnew, by simpa using hports, hnil⟩

end Snapshot
end QosControl
