import QosControl.Directive
import QosControl.Table

/-! # Traffic classes

The four traffic classes of a shaping level. A class that is not configured has the
full rate of the level and the default limit of the platform. Of several entries
for one class the last counts.
-/
namespace QosControl
open Json

def classCount : Nat := 4

/-- The rate of a class when none is configured. -/
def defaultClassRate : String := "100%"

structure TrafficClass where
  bandwidth : Bandwidth
  /-- Every limit that is configured; more than one is a failure. -/
  limits : List QueueLimit
  wred : Option Wred
deriving DecidableEq, Repr

namespace TrafficClass

/-- The leaves that hold a limit, and their units. -/
def limitLeaves : List (String × LimitUnit) :=
  [("queue-limit", .packets), ("queue-limit-bytes", .bytes), ("queue-limit-time", .time)]

def ofValue (v : Value) : TrafficClass where
  bandwidth := Bandwidth.ofValue v defaultClassRate
  limits := limitLeaves.filterMap fun (key, unit) => (v.word? key).map (⟨unit, ·⟩)
  wred := (v.field? "random-detect").bind Wred.ofValue?

def default : TrafficClass := ofValue .null

def explicitLimit? (c : TrafficClass) : Option QueueLimit := c.limits.head?

/-- The limit in force on a platform. -/
def limit (c : TrafficClass) (platform : LimitCapability) : QueueLimit :=
  c.explicitLimit?.getD platform.defaultLimit

/-- The rules that a class breaks. Its thresholds are held against the size of its
limit, and against the default packet limit when it has none. -/
def failures (c : TrafficClass) (id : Nat) (path : String) : List CheckFailure :=
  (if 1 < c.limits.length then
    [⟨s!"Traffic-class {id} may only set one of queue-limit-packets, queue-limit-bytes or queue-limit-time",
      path⟩]
  else []) ++
  c.wred.toList.flatMap fun w =>
    w.failures (some ((c.explicitLimit?.map (·.size)).getD defaultPacketLimit)) s!"{path}/random-detect"

end TrafficClass

abbrev TrafficClasses := Vector TrafficClass classCount

namespace TrafficClasses

def default : TrafficClasses := Vector.replicate classCount TrafficClass.default

def get? (cs : TrafficClasses) (id : Nat) : Option TrafficClass := cs[id]?

def entries (cs : TrafficClasses) : List (Nat × TrafficClass) :=
  (List.finRange classCount).map fun i => (i.val, cs[i])

def entryOfValue (v : Value) : Outcome (Nat × TrafficClass) := do
  let id ← v.requireWord "id" "traffic-class"
  if id < classCount then return (id, TrafficClass.ofValue v)
  else throw (.invalidConfig "traffic-class" s!"id {id} out of range 0..3")

def ofEntries (es : List (Nat × TrafficClass)) : TrafficClasses :=
  Vector.ofFn fun i => ((Table.ofList es).get? i.val).getD TrafficClass.default

def ofValues (vs : List Value) : Outcome TrafficClasses := do
  return ofEntries (← vs.mapM entryOfValue)

def failures (cs : TrafficClasses) (path : String) : List CheckFailure :=
  cs.entries.flatMap fun (id, c) => c.failures id s!"{path}/traffic-class/{id}"

/-- A rate line and a limit line for each class of a subport. -/
def subportDirectives (cs : TrafficClasses) (platform : LimitCapability) (subport parent : Nat) :
    List PortDirective :=
  cs.entries.flatMap fun (id, c) =>
    [.subportClass subport id (c.bandwidth.meter (some parent)),
     .subportLimit subport id (c.limit platform) c.wred]

/-- A rate line for each class of a profile. -/
def profileDirectives (cs : TrafficClasses) (profile parent : Nat) : List PortDirective :=
  cs.entries.map fun (id, c) => .profileClass profile id (c.bandwidth.meter (some parent))

end TrafficClasses
end QosControl
