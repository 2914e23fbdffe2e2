import QosControl.Proofs.LineNumbers
import QosControl.Proofs.ProfileIndexing
import QosControl.Proofs.Subports
import QosControl.Scenario

/-! # What the header of an interface promises

The first line of an interface tells how many subports, pipes and profiles it has. The lines after it
number the subports in order, define exactly that many profiles, and use no number that is not below
the count of its kind.
-/
namespace QosControl
open Json

theorem foldl_max_le_iff {α : Type} (f : α → Nat) (xs : List α) (n bound : Nat) :
    xs.foldl (fun n x => max n (f x)) n ≤ bound ↔ n ≤ bound ∧ ∀ x ∈ xs, f x ≤ bound := by
  induction xs generalizing n with
  | nil => simp
  | cons x xs ih => rw [List.foldl_cons, ih, Nat.max_le, List.forall_mem_cons, and_assoc]

theorem Shaper.pipeCount_le_iff {s : Shaper} {bound : Nat} :
    s.pipeCount ≤ bound ↔ 1 ≤ bound ∧ ∀ pipe ∈ s.pipes, pipe.1 < bound :=
  foldl_max_le_iff (fun p : Nat × String => p.1 + 1) s.pipes 1 bound

theorem Shaper.subset_profileDirectives {s : Shaper} {index : ProfileIndex} {vlan n : Nat} {q : Profile}
    (hq : q ∈ s.profiles) (hn : index.resolve? vlan q.name = some n) (hlocal : index.isGlobal n = false)
    (platform : LimitCapability) (rate : Nat) :
    q.directives platform n rate ⊆ s.profileDirectives platform vlan index rate := by
  intro d hd
  refine List.mem_flatMap.mpr ⟨q, hq, ?_⟩
  simp only [hn, hlocal]
  exact hd

/-- Whether the numbers in a line are below the counts of a header. -/
structure PortDirective.Below (d : PortDirective) (subports pipes profiles : Nat) : Prop where
  subport : ∀ n ∈ d.subport?, n < subports
  pipe : ∀ n ∈ d.pipe?, n < pipes
  profile : ∀ n ∈ d.profile?, n < profiles

namespace Snapshot
variable {s : Snapshot} {p : Port} {x : Subport × Shaper}

section Index
variable (hs : s.Orderly) (hp : p ∈ s.ports) {vlan n : Nat} {name : String}
include hs hp

theorem Orderly.sound : p.index.Sound := by
  rw [hs.index p hp]
  exact s.catalogue.sound_profileIndex p.interface

theorem Orderly.isSome_resolve?_iff : (p.index.resolve? vlan name).isSome = true ↔
    ∃ x ∈ s.catalogue.shapers p.interface, x.1.vlan = vlan ∧ name ∈ x.2.indexedNames s.catalogue.profiles := by
  rw [hs.index p hp]
  exact Catalogue.isSome_resolve?_profileIndex

theorem Orderly.isGlobal_iff (hn : p.index.resolve? vlan name = some n) :
    p.index.isGlobal n = true ↔ s.catalogue.profiles.contains name = true := by
  rw [hs.index p hp] at hn ⊢
  exact Catalogue.isGlobal_profileIndex hs.order hn

theorem Orderly.mem_globals (hn : p.index.resolve? vlan name = some n)
    (hcontains : s.catalogue.profiles.contains name = true) : (name, n) ∈ p.index.globals := by
  rw [hs.index p hp] at hn ⊢
  exact Catalogue.mem_globals_profileIndex hs.order hn hcontains

/-- The global profiles that an interface indexes are there. -/
theorem Orderly.exists_profile (hfind : p.index.find? (.shared name) = some n) :
    ∃ q, s.catalogue.profiles.get? name = some q := by
  rw [hs.index p hp] at hfind
  have hlisted := (Catalogue.isSome_find?_profileIndex.mp (Option.isSome_iff_exists.mpr ⟨n, hfind⟩)).1
  exact Table.contains_iff.mp ((hs.order name).mp hlisted)

end Index

theorem pipeCount_le_iff {shapers : List (Subport × Shaper)} {bound : Nat} :
    pipeCount shapers ≤ bound ↔ 1 ≤ bound ∧ ∀ x ∈ shapers, x.2.pipeCount ≤ bound :=
  foldl_max_le_iff (fun x : Subport × Shaper => x.2.pipeCount) shapers 1 bound

theorem lt_pipeCount {shapers : List (Subport × Shaper)} (hx : x ∈ shapers) {pipe : Nat × String}
    (h : pipe ∈ x.2.pipes) : pipe.1 < pipeCount shapers := by
  have hshaper := (pipeCount_le_iff.mp (Nat.le_refl (pipeCount shapers))).2 x hx
  exact (Shaper.pipeCount_le_iff.mp hshaper).2 pipe h

theorem pipeCount_le_of_classes {shapers : List (Subport × Shaper)} {bound : Nat} (hpos : 0 < bound)
    (h : ∀ x ∈ shapers, ∀ c ∈ x.2.classes, c.id < bound) : pipeCount shapers ≤ bound := by
  refine pipeCount_le_iff.mpr ⟨hpos, fun x hx => Shaper.pipeCount_le_iff.mpr ⟨hpos, ?_⟩⟩
  rw [Shaper.pipes, List.forall_mem_cons]
  refine ⟨hpos, fun pipe hpipe => ?_⟩
  obtain ⟨c, hc, rfl⟩ := List.mem_map.mp hpipe
  exact h x hx c hc

/-- The name of a pipe is indexed on the VLAN of its subport, unless it is empty and the name of a global profile. -/
theorem exists_resolve?_of_check (hs : s.Orderly) (hcheck : s.check = .ok ()) (hp : p ∈ s.ports)
    (hx : x ∈ s.catalogue.shapers p.interface) {name : String} (hname : name ∈ x.2.pipes.map (·.2))
    (hempty : s.catalogue.profiles.contains name = true → name ≠ "") :
    ∃ n, p.index.resolve? x.1.vlan name = some n := by
  rw [← Option.isSome_iff_exists, hs.isSome_resolve?_iff hp]
  refine ⟨x, hx, rfl, Shaper.mem_indexedNames.mpr ?_⟩
  have hdefines := Shaper.defines_eq_true_iff.mp (defines_of_check hcheck hx hname)
  refine hdefines.imp_right fun hglobal => ⟨?_, hglobal⟩
  exact List.mem_filter.mpr ⟨hname, by simpa using hempty hglobal⟩

theorem count_pos_of_check (hs : s.Orderly) (hcheck : s.check = .ok ()) (hp : p ∈ s.ports)
    (hx : x ∈ s.catalogue.shapers p.interface) : 0 < p.index.count := by
  have hdefault : x.2.defaultProfile ∈ x.2.pipes.map (·.2) := List.mem_cons_self
  obtain ⟨n, hn⟩ := exists_resolve?_of_check hs hcheck hp hx hdefault fun _ => defaultProfile_ne_of_check hcheck hx
  exact Nat.zero_lt_of_lt ((hs.sound hp).bounded _ _ hn)

theorem lt_count_of_mem_directives (hs : s.Orderly) (hp : p ∈ s.ports) {platform : LimitCapability}
    {d : PortDirective} (hd : d ∈ directives s.catalogue platform p) {n : Nat} (hn : d.profile? = some n) :
    n < p.index.count := by
  have hsound := hs.sound hp
  rcases profile?_of_mem_directives hd hn with ⟨g, hg, rfl, _⟩ | ⟨x, _, hd⟩
  · exact hsound.bounded _ _ (ProfileIndex.mem_globals.mp hg)
  · rcases Shaper.profile?_of_mem_directives hd hn with ⟨_, _, hid, _⟩ | ⟨_, _, hid, _⟩ <;>
      exact hsound.bounded _ _ hid

/-- The lines of the definition of a global profile that an interface has indexed. -/
theorem subset_globalProfileDirectives {c : Catalogue} {index : ProfileIndex} {name : String} {n : Nat}
    (hg : (name, n) ∈ index.globals) {q : Profile} (hq : c.profiles.get? name = some q) (platform : LimitCapability)
    (rate : Nat) : q.directives platform n rate ⊆ globalProfileDirectives c platform index rate := by
  intro d hd
  refine List.mem_flatMap.mpr ⟨(name, n), hg, ?_⟩
  simp only [hq]
  exact hd

theorem globalProfileDirectives_subset {c : Catalogue} (platform : LimitCapability)
    (h : c.shapers p.interface ≠ []) :
    globalProfileDirectives c platform p.index (c.trunkRate p.interface) ⊆ directives c platform p := by
  obtain ⟨overhead, heq⟩ := directives_eq_cons platform h
  intro d hd
  rw [heq]
  refine List.mem_cons_of_mem _ ?_
  simp only [List.mem_append]
  exact .inl (.inl (.inl hd))

/-- Every number below the count of an interface is that of a profile that it defines. -/
theorem exists_definition_subset (hs : s.Orderly) (hp : p ∈ s.ports) (platform : LimitCapability)
    (hshapers : s.catalogue.shapers p.interface ≠ []) {n : Nat} (hn : n < p.index.count) :
    ∃ (q : Profile) (rate : Nat), q.directives platform n rate ⊆ directives s.catalogue platform p := by
  have hsound := hs.sound hp
  -- the number is that of a global profile, or of a local one of a shaper
  by_cases hglobal : p.index.isGlobal n = true
  · obtain ⟨name, hfind⟩ := (hsound.isGlobal n).mp hglobal
    obtain ⟨q, hq⟩ := hs.exists_profile hp hfind
    have hsub := subset_globalProfileDirectives (ProfileIndex.mem_globals.mpr hfind) hq platform
      (s.catalogue.trunkRate p.interface)
    exact ⟨q, _, List.Subset.trans hsub (globalProfileDirectives_subset platform hshapers)⟩
  · obtain ⟨key, hfind⟩ := hsound.covered n hn
    cases key with
    | shared name => exact absurd ((hsound.isGlobal n).mpr ⟨name, hfind⟩) hglobal
    | onVlan vlan name =>
      have hresolve : p.index.resolve? vlan name = some n := hfind
      have hnot : s.catalogue.profiles.contains name ≠ true := by
        rw [ne_eq, ← hs.isGlobal_iff hp hresolve]
        exact hglobal
      obtain ⟨x, hx, rfl, hname⟩ := (hs.isSome_resolve?_iff hp).mp (Option.isSome_iff_exists.mpr ⟨n, hresolve⟩)
      obtain ⟨q, hq⟩ := (Shaper.mem_indexedNames.mp hname).resolve_right fun h => hnot h.2
      have hqname : q.name = name := by simpa using List.find?_some hq
      rw [← hqname] at hresolve
      obtain ⟨parent, hsub⟩ := shaperDirectives_subset platform hx
      rw [Shaper.directives_eq] at hsub
      refine ⟨q, x.2.bandwidth.bytesPerSecond parent, fun d hd => hsub ?_⟩
      have hd := Shaper.subset_profileDirectives (List.mem_of_find?_eq_some hq) hresolve
        (Bool.eq_false_iff.mpr hglobal) platform _ hd
      exact List.mem_append_left _ (List.mem_append_left _ (List.mem_append_right _ hd))

/-- The subports of an interface that has any are numbered in order. -/
theorem numbers_shapers_of_check (hs : s.Orderly) (hcheck : s.check = .ok ()) (hp : p ∈ s.ports) :
    (s.catalogue.shapers p.interface).map (·.1.number) = List.range (s.catalogue.shapers p.interface).length := by
  have hnumbers := (hs.numbered p hp).numbers
  rwa [← fst_shapers_of_check hcheck hp, List.map_map, List.length_map] at hnumbers

theorem number_lt_of_check (hs : s.Orderly) (hcheck : s.check = .ok ()) (hp : p ∈ s.ports)
    (hx : x ∈ s.catalogue.shapers p.interface) : x.1.number < (s.catalogue.shapers p.interface).length := by
  have hmem : x.1.number ∈ (s.catalogue.shapers p.interface).map (·.1.number) := List.mem_map_of_mem hx
  rwa [numbers_shapers_of_check hs hcheck hp, List.mem_range] at hmem

theorem below_of_mem_directives (hs : s.Orderly) (hcheck : s.check = .ok ()) (hp : p ∈ s.ports)
    {platform : LimitCapability} {d : PortDirective} (hd : d ∈ directives s.catalogue platform p) :
    d.Below (s.catalogue.shapers p.interface).length (pipeCount (s.catalogue.shapers p.interface)) p.index.count where
  subport := by
    intro n hn
    obtain ⟨x, hx, rfl⟩ := subport?_of_mem_directives hd hn
    exact number_lt_of_check hs hcheck hp hx
  pipe := by
    intro n hn
    obtain ⟨x, hx, pipe, hpipe, rfl⟩ := pipe?_of_mem_directives hd hn
    exact lt_pipeCount hx hpipe
  profile := by
    intro n hn
    exact lt_count_of_mem_directives hs hp hd hn

/-- The subport of number zero is on VLAN zero. -/
theorem vlan_trunk_mem_directives (hs : s.Orderly) (hcheck : s.check = .ok ()) (hp : p ∈ s.ports)
    (hshapers : s.catalogue.shapers p.interface ≠ []) {platform : LimitCapability} {vlan : Nat} :
    .vlan vlan 0 ∈ directives s.catalogue platform p ↔ vlan = 0 := by
  have htrunk : ∀ x ∈ s.catalogue.shapers p.interface, x.1.number = 0 → x.1.vlan = 0 := by
    intro x hx
    exact (hs.numbered p hp).trunk x.1 (Catalogue.fst_of_mem_shapers hx).1
  rw [vlan_mem_directives]
  constructor
  · rintro ⟨x, hx, rfl, hnumber⟩
    exact htrunk x hx hnumber
  · rintro rfl
    have hzero : 0 ∈ (s.catalogue.shapers p.interface).map (·.1.number) := by
      rw [numbers_shapers_of_check hs hcheck hp, List.mem_range]
      exact List.length_pos_iff.mpr hshapers
    obtain ⟨x, hx, hnumber⟩ := List.mem_map.mp hzero
    exact ⟨x, hx, htrunk x hx hnumber, hnumber⟩

/-- The lines after the header of an interface number its subports in order, and define as many profiles
as it says; no number in them reaches the count of its kind. The count of pipes is a 64-bit number if the
classes are numbered below the last one. -/
theorem exists_header_bounds (hs : s.Kept) (hcheck : s.check = .ok ()) (platform : LimitCapability) (hp : p ∈ s.ports)
    (hsubports : p.interface.subports ≠ []) : ∃ subports pipes profiles overhead lines,
    directives s.catalogue platform p = .header subports pipes profiles overhead platform :: lines ∧
      lines.filterMap PortDirective.ratedSubport? = List.range subports ∧
      (∀ vlan, .vlan vlan 0 ∈ lines ↔ vlan = 0) ∧
      (∀ id, (∃ meter period, .profile id meter period ∈ lines) ↔ id < profiles) ∧
      (∀ d ∈ lines, d.Below subports pipes profiles) ∧
      ((∀ x ∈ s.catalogue.shapers p.interface, ∀ c ∈ x.2.classes, c.id < Text.wordMax 64) →
        pipes ≤ Text.wordMax 64) := by
  have hs := hs.orderly
  have hshapers : s.catalogue.shapers p.interface ≠ [] := by
    intro hnil
    have hfst := fst_shapers_of_check hcheck hp
    rw [hnil] at hfst
    exact hsubports hfst.symm
  obtain ⟨x, hx⟩ := List.exists_mem_of_ne_nil _ hshapers
  have hcount : max p.index.count 1 = p.index.count := Nat.max_eq_left (count_pos_of_check hs hcheck hp hx)
  obtain ⟨overhead, heq⟩ := directives_eq_cons platform hshapers
  rw [hcount] at heq
  generalize hlines : _ ++ [PortDirective.enable] = lines at heq
  -- but for the header, the lines after it are all lines
  have hmem : ∀ d, (∀ n m k o l, d ≠ .header n m k o l) → (d ∈ lines ↔ d ∈ directives s.catalogue platform p) := by
    intro d hd
    rw [heq, List.mem_cons]
    exact ⟨.inr, fun h => h.resolve_left (hd _ _ _ _ _)⟩
  have hsub : lines ⊆ directives s.catalogue platform p := by
    rw [heq]
    exact List.subset_cons_self _ lines
  refine ⟨_, _, _, overhead, lines, heq, ?_, ?_, ?_, ?_, pipeCount_le_of_classes (by decide)⟩
  · have hrated := filterMap_ratedSubport?_directives s.catalogue platform p
    rw [heq, List.filterMap_cons_none rfl] at hrated
    exact hrated.trans (numbers_shapers_of_check hs hcheck hp)
  · intro vlan
    rw [hmem _ (by simp)]
    exact vlan_trunk_mem_directives hs hcheck hp hshapers
  · intro id
    constructor
    · rintro ⟨meter, period, hd⟩
      exact lt_count_of_mem_directives hs hp (hsub hd) rfl
    · intro hid
      obtain ⟨q, rate, hdefinition⟩ := exists_definition_subset hs hp platform hshapers hid
      exact ⟨_, _, (hmem _ (by simp)).mpr (hdefinition List.mem_cons_self)⟩
  · intro d hd
    exact below_of_mem_directives hs hcheck hp (hsub hd)

/-- A port without a policy on its trunk. Two of its VLANs have different profiles of one name, and a third
one has global profiles only. -/
def tagged : Snapshot :=
  orEmpty (Scenario.tree { Scenario.empty with
    policies := [Scenario.simplePolicy "p1" "1Gbit" "prof" "1Gbit", Scenario.simplePolicy "p2" "1Gbit" "prof" "50%",
      Scenario.globalPolicy "p3" "shared" [(2, "other")]]
    profiles := [Scenario.profile "shared" "1Gbit", Scenario.profile "other" "1Gbit"]
    ports := [Scenario.portWithVlans "dp0s1" none [(10, "p1"), (20, "p2"), (30, "p3")]] }) none

theorem check_tagged : tagged.check = .ok () := check_eq_ok_iff.mpr (by decide +kernel)

/-- The trunk of a port with policies on three VLANs is a subport of its own. -/
theorem exists_header_bounds_tagged : ∃ p ∈ tagged.ports, ∃ subports pipes profiles overhead lines,
    directives tagged.catalogue .packets p = .header subports pipes profiles overhead .packets :: lines ∧
      lines.filterMap PortDirective.ratedSubport? = List.range subports ∧
      (∀ vlan, .vlan vlan 0 ∈ lines ↔ vlan = 0) ∧
      (∀ id, (∃ meter period, .profile id meter period ∈ lines) ↔ id < profiles) ∧
      (∀ d ∈ lines, d.Below subports pipes profiles) ∧ pipes ≤ Text.wordMax 64 := by
  have hport : ∃ p ∈ tagged.ports, p.interface.subports.length = 4 ∧
      ∀ x ∈ tagged.catalogue.shapers p.interface, ∀ c ∈ x.2.classes, c.id < Text.wordMax 64 := by decide +kernel
  obtain ⟨p, hp, hlength, hclasses⟩ := hport
  have hsubports : p.interface.subports ≠ [] := by
    intro hnil
    rw [hnil] at hlength
    cases hlength
  obtain ⟨subports, pipes, profiles, overhead, lines, heq, hnumbers, htrunk, hprofiles, hbelow, hword⟩ :=
    exists_header_bounds (.read (read_orEmpty _ _)) check_tagged .packets hp hsubports
  exact ⟨p, hp, subports, pipes, profiles, overhead, lines, heq, hnumbers, htrunk, hprofiles, hbelow, hword hclasses⟩

end Snapshot
end QosControl
