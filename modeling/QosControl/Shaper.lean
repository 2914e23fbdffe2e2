import QosControl.Profile
import QosControl.ProfileIndex

/-! # Shapers

The root shaping descriptor of a subport: its rate, traffic classes, local profiles
and the classes that bind match rules to profiles. Pipe zero has the default
profile, and every class is a pipe of its own number.
-/
namespace QosControl
open Json

abbrev Profiles := Table String Profile

/-- Binds match rules to a profile. -/
structure RuleClass where
  id : Nat
  profile : String
  rules : List Rule
deriving DecidableEq, Repr

namespace RuleClass

def ofValue (v : Value) : Outcome RuleClass := do
  let id ← v.requireWord "id" "class"
  let rules ← (v.items "match").mapM Rule.ofValue
  return ⟨id, (v.text? "profile").getD "", rules⟩

def actionGroups (c : RuleClass) : List String := c.rules.filterMap (·.actionGroup)

def failures (c : RuleClass) (path : String) : List CheckFailure :=
  (if c.id = 0 then
    [⟨"Class id must be greater than 0, class 0 is the default class", path⟩] else []) ++
  c.rules.flatMap fun r => r.failures path

def directives (c : RuleClass) (subport : Nat) : List PortDirective :=
  c.rules.map fun r => .rule subport c.id r

end RuleClass

structure Shaper where
  bandwidth : Bandwidth
  period : Nat
  frameOverhead : Nat
  trafficClasses : TrafficClasses
  /-- Local profiles in the order of configuration. -/
  profiles : List Profile
  defaultProfile : String
  /-- Classes in ascending order of their ids. -/
  classes : List RuleClass
  markMap : Option String
deriving DecidableEq

namespace Shaper

def defaultRate : String := "10Gbit"

def defaultPeriod : Nat := 40

/-- The profile of a trunk that has no policy of its own. -/
def trunkProfile : String := "default"

def ofValue (v : Value) : Outcome Shaper := do
  let profiles ← (v.items "profile").mapM Profile.ofValue
  let classes ← (v.items "class").mapM RuleClass.ofValue
  let trafficClasses ← TrafficClasses.ofValues (v.items "traffic-class")
  return {
    profiles, trafficClasses
    bandwidth := Bandwidth.ofValue v defaultRate
    period := (v.word? "period").getD defaultPeriod
    frameOverhead := (v.word? "frame-overhead").getD Policer.defaultFrameOverhead
    defaultProfile := (v.text? "default").getD ""
    classes := classes.mergeSort fun a b => a.id ≤ b.id
    markMap := v.text? "mark-map" }

/-- The shaper of a trunk that only carries VLANs with policies. -/
def trunk : Shaper where
  bandwidth := Bandwidth.ofValue .null defaultRate
  period := defaultPeriod
  frameOverhead := Policer.defaultFrameOverhead
  trafficClasses := TrafficClasses.default
  profiles := [Profile.plain trunkProfile]
  defaultProfile := trunkProfile
  classes := []
  markMap := none

def pipes (s : Shaper) : List (Nat × String) :=
  (0, s.defaultProfile) :: s.classes.map fun c => (c.id, c.profile)

/-- One more than the highest pipe number, which is a 64-bit number if those of the classes are below the last one. -/
def pipeCount (s : Shaper) : Nat := s.pipes.foldl (fun n p => max n (p.1 + 1)) 1

def localProfile? (s : Shaper) (name : String) : Option Profile :=
  s.profiles.find? fun p => p.name = name

def referencedProfiles (s : Shaper) : List String :=
  (s.pipes.map (·.2)).filter fun name => name ≠ ""

/-- The names of global profiles in use, by a pipe or by a local profile of that name. -/
def referencedGlobals (s : Shaper) (globals : Profiles) : List String :=
  sortedKeys ((s.referencedProfiles ++ s.profiles.map (·.name)).filter globals.contains)

def actionGroups (s : Shaper) : List String := sortedKeys (s.classes.flatMap (·.actionGroups))

/-- Adds the profiles of a shaper to the index of its interface: the local ones in
the order of configuration, then the names that only a global profile has. -/
def indexProfiles (s : Shaper) (index : ProfileIndex) (vlan : Nat) (globals : Profiles) : ProfileIndex :=
  let onlyGlobal := s.referencedProfiles.filter fun name =>
    (s.localProfile? name).isNone && globals.contains name
  (s.profiles.map (·.name) ++ onlyGlobal).foldl (fun i name => i.insertLocal vlan name) index

/-- The definitions of local profiles, but those that share the number of a global one. -/
def profileDirectives (s : Shaper) (platform : LimitCapability) (vlan : Nat) (index : ProfileIndex)
    (rate : Nat) : List PortDirective :=
  s.profiles.flatMap fun p =>
    match index.resolve? vlan p.name with
    | some id => if index.isGlobal id then [] else p.directives platform id rate
    | none => []

/-- A line for each pipe whose profile is indexed. -/
def pipeDirectives (s : Shaper) (subport vlan : Nat) (index : ProfileIndex) : List PortDirective :=
  s.pipes.filterMap fun (pipe, name) => (index.resolve? vlan name).map (.pipe subport pipe ·)

/-- The lines of a subport, under the rate of its trunk if it has one above it. -/
def directives (s : Shaper) (platform : LimitCapability) (subport vlan : Nat) (index : ProfileIndex)
    (parent : Option Nat) : List PortDirective :=
  let rate := s.bandwidth.bytesPerSecond parent
  .subport subport (s.bandwidth.meter parent) s.period ::
    (s.trafficClasses.subportDirectives platform subport rate ++
      .vlan vlan subport ::
      (s.markMap.map (.markMap subport ·)).toList ++
      s.profileDirectives platform vlan index rate ++
      s.pipeDirectives subport vlan index ++
      s.classes.flatMap fun c => c.directives subport)

def defines (s : Shaper) (globals : Profiles) (name : String) : Bool :=
  (s.localProfile? name).isSome || globals.contains name

def defaultFailures (s : Shaper) (globals : Profiles) (path : String) : List CheckFailure :=
  if s.defaultProfile = "" then [⟨"Default profile must be configured", path⟩]
  else if s.defines globals s.defaultProfile then []
  else [⟨s!"Default profile {s.defaultProfile} is not defined", s!"{path}/default"⟩]

def classFailures (s : Shaper) (globals : Profiles) (path : String) (c : RuleClass) :
    List CheckFailure :=
  c.failures path ++
    if s.defines globals c.profile then []
    else [⟨s!"Class {c.id} profile {c.profile} is not defined", path⟩]

def failures (s : Shaper) (globals : Profiles) (path : String) : List CheckFailure :=
  s.defaultFailures globals path ++
  s.trafficClasses.failures path ++
  (s.profiles.flatMap fun p => p.failures s!"{path}/profile/{p.name}") ++
  s.classes.flatMap fun c => s.classFailures globals s!"{path}/class/{c.id}" c

end Shaper
end QosControl
