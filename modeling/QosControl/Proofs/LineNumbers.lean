import QosControl.Proofs.PortLines

/-! # The numbers in the lines of an interface

A line is about a subport, a pipe or a profile by number. The profile numbers of an interface come from
its index: those of the global profiles in it, and those of the names that its shapers use.
-/
namespace QosControl

namespace PortDirective
variable {d : PortDirective} {n : Nat}

def subport? : PortDirective → Option Nat
  | .subport n .. | .subportClass n .. | .subportLimit n .. | .vlan _ n | .markMap n _ | .pipe n .. | .rule n .. =>
    some n
  | _ => none

def ratedSubport? : PortDirective → Option Nat
  | .subport n .. => some n
  | _ => none

/-- The pipe that a line is about, a class being the pipe of its number. -/
def pipe? : PortDirective → Option Nat
  | .pipe _ n _ | .rule _ n _ => some n
  | _ => none

/-- The profile that a line is part of the definition of, or binds a pipe to. -/
def profile? : PortDirective → Option Nat
  | .pipe _ _ n => some n
  | d => d.definedProfile?

theorem profile?_of_definedProfile? (h : d.definedProfile? = some n) : d.profile? = some n := by
  cases d with
  | pipe => cases h
  | _ => exact h

theorem eq_none_of_definesProfile (h : d.definesProfile = true) : d.subport? = none ∧ d.pipe? = none := by
  cases d <;> first | exact ⟨rfl, rfl⟩ | cases h

end PortDirective

namespace Shaper
variable {s : Shaper} {platform : LimitCapability} {subport vlan : Nat} {index : ProfileIndex} {parent : Option Nat}
  {d : PortDirective} {n : Nat}

/-- The lines of a subport that come before its profiles. -/
def settings (s : Shaper) (platform : LimitCapability) (subport vlan : Nat) (parent : Option Nat) :
    List PortDirective :=
  .subport subport (s.bandwidth.meter parent) s.period ::
    (s.trafficClasses.subportDirectives platform subport (s.bandwidth.bytesPerSecond parent) ++
      .vlan vlan subport :: (s.markMap.map (.markMap subport ·)).toList)

theorem directives_eq (s : Shaper) (platform : LimitCapability) (subport vlan : Nat) (index : ProfileIndex)
    (parent : Option Nat) : s.directives platform subport vlan index parent = s.settings platform subport vlan parent ++
      s.profileDirectives platform vlan index (s.bandwidth.bytesPerSecond parent) ++
      s.pipeDirectives subport vlan index ++ s.classes.flatMap fun c => c.directives subport := by
  simp [directives, settings]

theorem profile?_of_mem_settings (hd : d ∈ s.settings platform subport vlan parent) : d.profile? = none := by
  simp only [settings, List.mem_cons, List.mem_append] at hd
  rcases hd with rfl | hd | rfl | hd
  · rfl
  · obtain ⟨id, ⟨meter, rfl⟩ | ⟨limit, wred, rfl⟩⟩ := TrafficClasses.mem_subportDirectives hd <;> rfl
  · rfl
  · obtain ⟨m, _, rfl⟩ := Option.map_eq_some_iff.mp (Option.mem_toList.mp hd)
    rfl

theorem mem_pipeDirectives : d ∈ s.pipeDirectives subport vlan index ↔
    ∃ pipe ∈ s.pipes, ∃ n, index.resolve? vlan pipe.2 = some n ∧ .pipe subport pipe.1 n = d := by
  simp only [pipeDirectives, List.mem_filterMap, Option.map_eq_some_iff]

/-- A profile number in a line of a shaper is that of a name on its VLAN: of a profile of its own that is not
global, or of one that a pipe is bound to. -/
theorem profile?_of_mem_directives (hd : d ∈ s.directives platform subport vlan index parent)
    (hn : d.profile? = some n) :
    (∃ p ∈ s.profiles, index.resolve? vlan p.name = some n ∧ index.isGlobal n = false ∧ d.definedProfile? = some n) ∨
      ∃ pipe ∈ s.pipes, index.resolve? vlan pipe.2 = some n ∧ d = .pipe subport pipe.1 n := by
  simp only [directives_eq, List.mem_append] at hd
  rcases hd with ((hd | hd) | hd) | hd
  · rw [profile?_of_mem_settings hd] at hn
    cases hn
  · obtain ⟨p, hp, id, hid, hlocal, hd⟩ := s.definedProfile?_profileDirectives _ _ _ _ d hd
    rw [PortDirective.profile?_of_definedProfile? hd] at hn
    cases hn
    exact .inl ⟨p, hp, hid, hlocal, hd⟩
  · obtain ⟨pipe, hpipe, m, hm, rfl⟩ := mem_pipeDirectives.mp hd
    cases hn
    exact .inr ⟨pipe, hpipe, hm, rfl⟩
  · obtain ⟨c, _, hd⟩ := List.mem_flatMap.mp hd
    obtain ⟨r, _, rfl⟩ := List.mem_map.mp hd
    cases hn

theorem filterMap_ratedSubport?_directives : (s.directives platform subport vlan index parent).filterMap
    PortDirective.ratedSubport? = [subport] := by
  have hrest : ∀ d ∈ (s.directives platform subport vlan index parent).tail, d.ratedSubport? = none := by
    intro d hd
    simp only [directives, List.tail_cons, List.mem_append, List.mem_cons] at hd
    rcases hd with (((hd | rfl | hd) | hd) | hd) | hd
    · obtain ⟨id, ⟨meter, rfl⟩ | ⟨limit, wred, rfl⟩⟩ := TrafficClasses.mem_subportDirectives hd <;> rfl
    · rfl
    · obtain ⟨m, _, rfl⟩ := Option.map_eq_some_iff.mp (Option.mem_toList.mp hd)
      rfl
    · obtain ⟨_, _, _, _, _, hd⟩ := s.definedProfile?_profileDirectives _ _ _ _ d hd
      cases d <;> first | rfl | cases hd
    · obtain ⟨pipe, _, n, _, rfl⟩ := mem_pipeDirectives.mp hd
      rfl
    · obtain ⟨c, _, hd⟩ := List.mem_flatMap.mp hd
      obtain ⟨r, _, rfl⟩ := List.mem_map.mp hd
      rfl
  exact congrArg (subport :: ·) (List.filterMap_eq_nil_iff.mpr hrest)

end Shaper

namespace Catalogue
variable {c : Catalogue} {i : Interface}

def trunkRate (c : Catalogue) (i : Interface) : Nat :=
  ((c.shapers i).head?.map fun x => x.2.bandwidth.bytesPerSecond none).getD 0

/-- The rate that percentages of a subport are of, none for the trunk. -/
def parentRate? (c : Catalogue) (i : Interface) (x : Subport) : Option Nat :=
  if x.number = 0 then none else some (c.trunkRate i)

end Catalogue

namespace Snapshot
variable {c : Catalogue} {platform : LimitCapability} {p : Port} {d : PortDirective} {n : Nat}

theorem directives_eq_cons (platform : LimitCapability) (h : c.shapers p.interface ≠ []) : ∃ overhead,
    directives c platform p = .header (c.shapers p.interface).length (pipeCount (c.shapers p.interface))
      (max p.index.count 1) overhead platform ::
      (globalProfileDirectives c platform p.index (c.trunkRate p.interface) ++
        ((c.shapers p.interface).flatMap fun x => x.2.directives platform x.1.number x.1.vlan p.index
          (c.parentRate? p.interface x.1)) ++ bindDirectives p.interface ++ [.enable]) := by
  have hcons : ∃ x rest, c.shapers p.interface = x :: rest := List.exists_cons_of_ne_nil h
  obtain ⟨⟨subport, trunk⟩, rest, hs⟩ := hcons
  refine ⟨trunk.frameOverhead, ?_⟩
  simp only [directives, hs, shaperDirectives, Catalogue.parentRate?, Catalogue.trunkRate]
  rfl

theorem profile?_of_mem_bindDirectives (hd : d ∈ bindDirectives p.interface) : d.profile? = none := by
  obtain ⟨kind, u, _, rfl⟩ := mem_bindDirectives.mp hd
  rfl

/-- A profile number in a line of an interface is that of a global profile in its index, in a line of the
definition of that profile, or it is in a line of one of its shapers. -/
theorem profile?_of_mem_directives (hd : d ∈ directives c platform p) (hn : d.profile? = some n) :
    (∃ g ∈ p.index.globals, g.2 = n ∧ d.definedProfile? = some n) ∨ ∃ x ∈ c.shapers p.interface,
      d ∈ x.2.directives platform x.1.number x.1.vlan p.index (c.parentRate? p.interface x.1) := by
  cases hs : c.shapers p.interface with
  | nil =>
    rw [directives, hs] at hd
    rw [profile?_of_mem_bindDirectives hd] at hn
    cases hn
  | cons x rest =>
    obtain ⟨overhead, heq⟩ := directives_eq_cons (p := p) platform (hs ▸ List.cons_ne_nil x rest)
    rw [heq, hs] at hd
    simp only [List.mem_cons, List.mem_append, List.not_mem_nil, or_false] at hd
    rcases hd with rfl | ((hd | hd) | hd) | rfl
    · cases hn
    · obtain ⟨g, hg, hd⟩ := definedProfile?_globalProfileDirectives _ _ _ _ d hd
      rw [PortDirective.profile?_of_definedProfile? hd] at hn
      cases hn
      exact .inl ⟨g, hg, rfl, hd⟩
    · exact .inr (List.mem_flatMap.mp hd)
    · rw [profile?_of_mem_bindDirectives hd] at hn
      cases hn
    · cases hn

theorem subport?_of_mem_directives (hd : d ∈ directives c platform p) (hn : d.subport? = some n) :
    ∃ x ∈ c.shapers p.interface, x.1.number = n := by
  have hprofile : d.definesProfile ≠ true := by
    intro h
    rw [(PortDirective.eq_none_of_definesProfile h).1] at hn
    cases hn
  cases line_of_mem_directives hd with
  | profile h => exact absurd h hprofile
  | @subport x _ hx h =>
    refine ⟨x, hx, ?_⟩
    cases h with
    | profile h => exact absurd h hprofile
    | _ => exact Option.some.inj hn
  | _ => cases hn

theorem pipe?_of_mem_directives (hd : d ∈ directives c platform p) (hn : d.pipe? = some n) :
    ∃ x ∈ c.shapers p.interface, ∃ pipe ∈ x.2.pipes, pipe.1 = n := by
  have hprofile : d.definesProfile ≠ true := by
    intro h
    rw [(PortDirective.eq_none_of_definesProfile h).2] at hn
    cases hn
  cases line_of_mem_directives hd with
  | profile h => exact absurd h hprofile
  | @subport x _ hx h =>
    cases h with
    | profile h => exact absurd h hprofile
    | pipe pipe profile =>
      cases hn
      rcases profile?_of_mem_directives hd rfl with ⟨_, _, _, h⟩ | ⟨y, hy, hd⟩
      · cases h
      · rcases Shaper.profile?_of_mem_directives hd rfl with ⟨_, _, _, _, h⟩ | ⟨q, hq, _, heq⟩
        · cases h
        · exact ⟨y, hy, q, hq, (PortDirective.pipe.inj heq).2.1.symm⟩
    | @rule g r hg _ =>
      cases hn
      exact ⟨x, hx, (g.id, g.profile), List.mem_cons_of_mem _ (List.mem_map_of_mem hg), rfl⟩
    | _ => cases hn
  | _ => cases hn

theorem filterMap_ratedSubport?_directives (c : Catalogue) (platform : LimitCapability) (p : Port) :
    (directives c platform p).filterMap PortDirective.ratedSubport? = (c.shapers p.interface).map (·.1.number) := by
  have hbind : (bindDirectives p.interface).filterMap PortDirective.ratedSubport? = [] := by
    refine List.filterMap_eq_nil_iff.mpr fun d hd => ?_
    obtain ⟨kind, u, _, rfl⟩ := mem_bindDirectives.mp hd
    rfl
  by_cases hs : c.shapers p.interface = []
  · rw [directives, hs]
    exact hbind
  · obtain ⟨overhead, heq⟩ := directives_eq_cons platform hs
    have hglobal : ∀ rate, (globalProfileDirectives c platform p.index rate).filterMap
        PortDirective.ratedSubport? = [] := by
      intro rate
      refine List.filterMap_eq_nil_iff.mpr fun d hd => ?_
      obtain ⟨g, _, hd⟩ := definedProfile?_globalProfileDirectives _ _ _ _ d hd
      cases d <;> first | rfl | cases hd
    rw [heq, List.filterMap_cons_none rfl, List.filterMap_append, List.filterMap_append, List.filterMap_append,
      hglobal, hbind, List.filterMap_flatMap]
    simp only [Shaper.filterMap_ratedSubport?_directives]
    rw [← List.map_eq_flatMap, List.nil_append, List.append_nil]
    exact List.append_nil _

theorem vlan_mem_directives {vlan : Nat} : .vlan vlan n ∈ directives c platform p ↔
    ∃ x ∈ c.shapers p.interface, x.1.vlan = vlan ∧ x.1.number = n := by
  constructor
  · intro hd
    cases line_of_mem_directives hd with
    | profile h => cases h
    | @subport x _ hx h =>
      cases h with
      | profile h => cases h
      | vlan => exact ⟨x, hx, rfl, rfl⟩
  · rintro ⟨x, hx, rfl, rfl⟩
    obtain ⟨parent, hsub⟩ := shaperDirectives_subset platform hx
    refine hsub ?_
    rw [Shaper.directives_eq, Shaper.settings]
    simp

end Snapshot
end QosControl
