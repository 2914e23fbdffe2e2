import Mathlib.Data.List.Basic
import QosControl.Snapshot

/-! # Lines that configure an interface

What an interface is configured with falls into the lines that its policies give and
the lines that bind its maps. No line takes anything off, so a disable or an unbind in
a plan was put there for its own sake.
-/
namespace QosControl

/-- Whether a line is part of the definition of a profile. -/
def PortDirective.definesProfile : PortDirective → Bool
  | .profile .. | .profileClass .. | .queue .. | .queueLimit .. | .classify .. => true
  | _ => false

/-- The number of the profile that a line is part of the definition of. -/
def PortDirective.definedProfile? : PortDirective → Option Nat
  | .profile n .. | .profileClass n .. | .queue n .. | .queueLimit n .. | .classify n .. => some n
  | _ => none

theorem PortDirective.definesProfile_of_definedProfile? {d : PortDirective} {n : Nat}
    (h : d.definedProfile? = some n) : d.definesProfile = true := by
  cases d <;> first | rfl | cases h

theorem TrafficClasses.mem_subportDirectives {cs : TrafficClasses} {platform : LimitCapability}
    {subport parent : Nat} {d : PortDirective} (hd : d ∈ cs.subportDirectives platform subport parent) :
    ∃ id, (∃ meter, d = .subportClass subport id meter) ∨ ∃ limit wred, d = .subportLimit subport id limit wred := by
  obtain ⟨⟨id, c⟩, _, hd⟩ := List.mem_flatMap.mp hd
  rcases List.mem_cons.mp hd with rfl | hd
  · exact ⟨id, .inl ⟨_, rfl⟩⟩
  · exact ⟨id, .inr ⟨_, _, List.mem_singleton.mp hd⟩⟩

theorem TrafficClasses.definedProfile?_profileDirectives (cs : TrafficClasses) (profile parent : Nat) :
    ∀ d ∈ cs.profileDirectives profile parent, d.definedProfile? = some profile := by
  intro d hd
  obtain ⟨⟨id, c⟩, _, rfl⟩ := List.mem_map.mp hd
  rfl

theorem PipeQueues.definedProfile?_directives (qs : PipeQueues) (platform : LimitCapability) (profile : Nat)
    (classes : TrafficClasses) : ∀ d ∈ qs.directives platform profile classes, d.definedProfile? = some profile := by
  intro d hd
  obtain ⟨q, _, hd⟩ := List.mem_flatMap.mp hd
  rcases List.mem_cons.mp hd with rfl | hd
  · rfl
  · rw [List.mem_singleton.mp (List.mem_ite_nil_right.mp hd).2]
    rfl

theorem ProfileMap.definedProfile?_directives (m : ProfileMap) (profile : Nat) (queues : PipeQueues) :
    ∀ d ∈ m.directives profile queues, d.definedProfile? = some profile := by
  intro d hd
  obtain ⟨⟨e, precedence⟩, _, hd⟩ := List.mem_flatMap.mp hd
  obtain ⟨c, _, rfl⟩ := List.mem_map.mp hd
  rfl

theorem Profile.definedProfile?_directives (p : Profile) (platform : LimitCapability) (id parent : Nat) :
    ∀ d ∈ p.directives platform id parent, d.definedProfile? = some id := by
  intro d hd
  rcases List.mem_cons.mp hd with rfl | hd
  · rfl
  · rcases List.mem_append.mp hd with hd | hd
    · rcases List.mem_append.mp hd with hd | hd
      · exact p.classes.definedProfile?_profileDirectives _ _ d hd
      · exact p.queues.definedProfile?_directives _ _ _ d hd
    · obtain ⟨m, _, hd⟩ := List.mem_flatMap.mp hd
      exact m.definedProfile?_directives _ _ d hd

namespace Shaper
variable (s : Shaper) (platform : LimitCapability) (subport vlan : Nat) (index : ProfileIndex)

/-- The definitions among the lines of a shaper are those of its profiles, unless a global one has the number. -/
theorem definedProfile?_profileDirectives (rate : Nat) :
    ∀ d ∈ s.profileDirectives platform vlan index rate, ∃ p ∈ s.profiles, ∃ id,
      index.resolve? vlan p.name = some id ∧ index.isGlobal id = false ∧ d.definedProfile? = some id := by
  intro d hd
  obtain ⟨p, hp, hd⟩ := List.mem_flatMap.mp hd
  cases hid : index.resolve? vlan p.name with
  | none => simp [hid] at hd
  | some id =>
    simp only [hid] at hd
    obtain ⟨hlocal, hd⟩ := List.mem_ite_nil_left.mp hd
    exact ⟨p, hp, id, hid, Bool.eq_false_iff.mpr hlocal, p.definedProfile?_directives _ _ _ d hd⟩

/-- The lines of a subport: its rate, its VLAN, its traffic classes, its mark map, the definitions
of profiles, its pipes, and the rules of its classes. -/
inductive Line : PortDirective → Prop
  | subport (meter : Meter) (period : Nat) : Line (.subport subport meter period)
  | vlan : Line (.vlan vlan subport)
  | subportClass (id : Nat) (meter : Meter) : Line (.subportClass subport id meter)
  | subportLimit (id : Nat) (limit : QueueLimit) (wred : Option Wred) :
    Line (.subportLimit subport id limit wred)
  | markMap {map : String} : s.markMap = some map → Line (.markMap subport map)
  | profile {d : PortDirective} : d.definesProfile = true → Line d
  | pipe (pipe profile : Nat) : Line (.pipe subport pipe profile)
  | rule {c : RuleClass} {r : Rule} : c ∈ s.classes → r ∈ c.rules → Line (.rule subport c.id r)

variable {s platform subport vlan index}

theorem line_of_mem_directives {parent : Option Nat} {d : PortDirective}
    (hd : d ∈ s.directives platform subport vlan index parent) : s.Line subport vlan d := by
  simp only [directives, List.mem_cons, List.mem_append, List.cons_append, List.append_assoc] at hd
  rcases hd with rfl | hd | rfl | hd | hd | hd | hd
  · exact .subport _ _
  · obtain ⟨id, ⟨meter, rfl⟩ | ⟨limit, wred, rfl⟩⟩ := TrafficClasses.mem_subportDirectives hd
    · exact .subportClass id meter
    · exact .subportLimit id limit wred
  · exact .vlan
  · obtain ⟨m, hm, rfl⟩ := Option.map_eq_some_iff.mp (Option.mem_toList.mp hd)
    exact .markMap hm
  · obtain ⟨_, _, _, _, _, hd⟩ := s.definedProfile?_profileDirectives _ _ _ _ d hd
    exact .profile (PortDirective.definesProfile_of_definedProfile? hd)
  · obtain ⟨⟨pipe, name⟩, _, hd⟩ := List.mem_filterMap.mp hd
    obtain ⟨n, _, rfl⟩ := Option.map_eq_some_iff.mp hd
    exact .pipe pipe n
  · obtain ⟨c, hc, hd⟩ := List.mem_flatMap.mp hd
    obtain ⟨r, hr, rfl⟩ := List.mem_map.mp hd
    exact .rule hc hr

end Shaper

namespace Snapshot

theorem mem_bindDirectives {i : Interface} {d : PortDirective} :
    d ∈ bindDirectives i ↔ ∃ kind, ∃ u ∈ i.mapUses kind, d = .bind kind u.map u.vlan := by
  simp only [bindDirectives, List.mem_flatMap, List.mem_map]
  constructor
  · rintro ⟨kind, _, u, hu, rfl⟩
    exact ⟨kind, u, hu, rfl⟩
  · rintro ⟨kind, u, hu, rfl⟩
    exact ⟨kind, by cases kind <;> simp, u, hu, rfl⟩

theorem definedProfile?_globalProfileDirectives (c : Catalogue) (platform : LimitCapability)
    (index : ProfileIndex) (rate : Nat) : ∀ d ∈ globalProfileDirectives c platform index rate,
      ∃ g ∈ index.globals, d.definedProfile? = some g.2 := by
  intro d hd
  obtain ⟨⟨name, id⟩, hg, hd⟩ := List.mem_flatMap.mp hd
  cases hp : c.profiles.get? name with
  | none => simp [hp] at hd
  | some p =>
    simp only [hp] at hd
    exact ⟨_, hg, p.definedProfile?_directives _ _ _ d hd⟩

variable {c : Catalogue} {platform : LimitCapability} {p : Port}

theorem bindDirectives_subset : bindDirectives p.interface ⊆ directives c platform p := by
  intro d hd
  unfold directives
  cases c.shapers p.interface with
  | nil => exact hd
  | cons x rest => exact List.mem_cons_of_mem _ (List.mem_append_left _ (List.mem_append_right _ hd))

theorem shaperDirectives_subset (platform : LimitCapability) {x : Subport × Shaper}
    (hx : x ∈ c.shapers p.interface) : ∃ parent,
      x.2.directives platform x.1.number x.1.vlan p.index parent ⊆ directives c platform p := by
  unfold directives
  cases hs : c.shapers p.interface with
  | nil => simp [hs] at hx
  | cons y rest =>
    obtain ⟨subport, trunk⟩ := y
    let rate := trunk.bandwidth.bytesPerSecond none
    refine ⟨if x.1.number = 0 then none else some rate, fun d hd => List.mem_cons_of_mem _ ?_⟩
    have hlines : d ∈ shaperDirectives platform p.index rate ((subport, trunk) :: rest) :=
      List.mem_flatMap.mpr ⟨x, hs ▸ hx, hd⟩
    exact List.mem_append_left _ (List.mem_append_left _ (List.mem_append_right _ hlines))

/-- What the lines of an interface are: its header, definitions of profiles, the lines of its
subports, the bindings of its maps, and its enabling. -/
inductive Line (c : Catalogue) (i : Interface) : PortDirective → Prop
  | header (subports pipes profiles overhead : Nat) (limits : LimitCapability) :
    Line c i (.header subports pipes profiles overhead limits)
  | profile {d : PortDirective} : d.definesProfile = true → Line c i d
  | subport {x : Subport × Shaper} {d : PortDirective} : x ∈ c.shapers i →
    x.2.Line x.1.number x.1.vlan d → Line c i d
  | bind (kind : PortMapKind) {u : MapUse} : u ∈ i.mapUses kind → Line c i (.bind kind u.map u.vlan)
  | enable : Line c i .enable

theorem line_of_mem_directives {d : PortDirective} (h : d ∈ directives c platform p) :
    Line c p.interface d := by
  have hbind : d ∈ bindDirectives p.interface → Line c p.interface d := by
    intro h
    obtain ⟨kind, u, hu, rfl⟩ := mem_bindDirectives.mp h
    exact .bind kind hu
  unfold directives at h
  cases hs : c.shapers p.interface with
  | nil =>
    rw [hs] at h
    exact hbind h
  | cons x rest =>
    obtain ⟨subport, trunk⟩ := x
    simp only [hs, List.mem_cons, List.mem_append, List.not_mem_nil, or_false] at h
    rcases h with rfl | ((h | h) | h) | rfl
    · exact .header _ _ _ _ _
    · obtain ⟨_, _, h⟩ := definedProfile?_globalProfileDirectives _ _ _ _ d h
      exact .profile (PortDirective.definesProfile_of_definedProfile? h)
    · obtain ⟨x, hx, h⟩ := List.mem_flatMap.mp h
      have hx : x ∈ c.shapers p.interface := by
        rw [hs]
        exact hx
      exact .subport hx (Shaper.line_of_mem_directives h)
    · exact hbind h
    · exact .enable

/-- The bindings among the lines of an interface are those that it carries. -/
theorem bind_mem_directives {kind : PortMapKind} {map : String} {vlan : Nat} :
    .bind kind map vlan ∈ directives c platform p ↔ ⟨map, vlan⟩ ∈ p.interface.mapUses kind := by
  constructor
  · intro h
    cases line_of_mem_directives h with
    | profile h => cases h
    | subport _ h =>
      cases h with
      | profile h => cases h
    | bind _ hu => exact hu
  · intro h
    exact bindDirectives_subset (mem_bindDirectives.mpr ⟨kind, _, h, rfl⟩)

theorem disable_not_mem_directives : .disable ∉ directives c platform p := by
  intro h
  cases line_of_mem_directives h with
  | profile h => cases h
  | subport _ h =>
    cases h with
    | profile h => cases h

theorem unbind_not_mem_directives {kind : PortMapKind} {map : String} {vlan : Nat} :
    .unbind kind map vlan ∉ directives c platform p := by
  intro h
  cases line_of_mem_directives h with
  | profile h => cases h
  | subport _ h =>
    cases h with
    | profile h => cases h

/-- The lines of an interface with a shaper end with its enabling, which stands nowhere else. -/
theorem directives_eq_append (c : Catalogue) (platform : LimitCapability) (p : Port) : ∃ lines,
    .enable ∉ lines ∧
      directives c platform p = lines ++ if (c.shapers p.interface).isEmpty then [] else [.enable] := by
  have hbind : .enable ∉ bindDirectives p.interface := by
    intro h
    obtain ⟨_, _, _, h⟩ := mem_bindDirectives.mp h
    cases h
  unfold directives
  cases c.shapers p.interface with
  | nil => exact ⟨bindDirectives p.interface, hbind, (List.append_nil _).symm⟩
  | cons x rest =>
    obtain ⟨subport, trunk⟩ := x
    refine ⟨_ :: (globalProfileDirectives c platform p.index (trunk.bandwidth.bytesPerSecond none) ++
      shaperDirectives platform p.index (trunk.bandwidth.bytesPerSecond none) ((subport, trunk) :: rest) ++
      bindDirectives p.interface), ?_, rfl⟩
    simp only [List.mem_cons, List.mem_append]
    rintro (h | (h | h) | h)
    · cases h
    · obtain ⟨_, _, h⟩ := definedProfile?_globalProfileDirectives _ _ _ _ _ h
      cases h
    · obtain ⟨x, _, h⟩ := List.mem_flatMap.mp h
      cases Shaper.line_of_mem_directives h with
      | profile h => cases h
    · exact hbind h

theorem count_enable_directives_le_one : (directives c platform p).count .enable ≤ 1 := by
  obtain ⟨lines, hlines, h⟩ := directives_eq_append c platform p
  rw [h, List.count_append, List.count_eq_zero_of_not_mem hlines, Nat.zero_add]
  split
  · exact Nat.zero_le 1
  · exact Nat.le_refl 1

theorem mem_attachment {s : Snapshot} {i : Instruction} :
    i ∈ s.attachment platform p ↔ ∃ d ∈ directives s.catalogue platform p, i = .port p.name d := by
  simp [attachment, eq_comm]

end Snapshot
end QosControl
