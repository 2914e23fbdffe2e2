import QosControl.ProfileMap

/-! # Profiles

Shaping templates that pipes are bound to. A profile belongs to one shaper or is
global and shared by name; its number is given by the interface that uses it.
-/
namespace QosControl
open Json

def defaultProfileRate : String := "100%"

def defaultProfilePeriod : Nat := 10

structure Profile where
  name : String
  bandwidth : Bandwidth
  period : Nat
  classes : TrafficClasses
  queues : PipeQueues
  map : Option ProfileMap
deriving DecidableEq

namespace Profile

def ofValue (v : Value) : Outcome Profile := do
  let name ← v.requireText "id" "profile"
  let classes ← TrafficClasses.ofValues (v.items "traffic-class")
  let queues ← PipeQueues.ofValues (v.items "queue")
  let map ← match v.field? "map" with
    | some m => ProfileMap.ofValue? m
    | none => .ok none
  return {
    name, classes, queues, map
    bandwidth := Bandwidth.ofValue v defaultProfileRate
    period := (v.word? "period").getD defaultProfilePeriod }

/-- A profile with the full rate of its parent and nothing configured. -/
def plain (name : String) : Profile where
  name := name
  bandwidth := Bandwidth.ofValue .null defaultProfileRate
  period := defaultProfilePeriod
  classes := TrafficClasses.default
  queues := PipeQueues.empty
  map := none

def failures (p : Profile) (path : String) : List CheckFailure :=
  p.classes.failures path ++ p.queues.failures p.classes path

/-- The lines that define the profile under a number. -/
def directives (p : Profile) (platform : LimitCapability) (id parent : Nat) : List PortDirective :=
  .profile id (p.bandwidth.meter (some parent)) p.period ::
    (p.classes.profileDirectives id (p.bandwidth.bytesPerSecond (some parent)) ++
      p.queues.directives platform id p.classes ++
      p.map.toList.flatMap fun m => m.directives id p.queues)

end Profile
end QosControl
