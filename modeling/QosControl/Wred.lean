import QosControl.Field
import QosControl.Limit

/-! # Random early detection

Thresholds at which a queue begins to drop, for a traffic class by colour or for a
pipe queue by DSCP group. The lower threshold lies below the upper one, and the
upper one below the queue limit it is sent with.
-/
namespace QosControl
open Json

/-- The colour of a packet, which is its drop precedence. -/
inductive Colour where
  | green
  | yellow
  | red
deriving DecidableEq, Repr

namespace Colour

def text : Colour → String
  | .green => "green"
  | .yellow => "yellow"
  | .red => "red"

def index : Colour → Nat
  | .green => 0
  | .yellow => 1
  | .red => 2

def all : List Colour := [.green, .yellow, .red]

def ofText? (s : String) : Option Colour := all.find? fun c => c.text = s

end Colour

/-- A pair of thresholds with the mark probability between them. -/
structure Thresholds where
  low : Nat
  high : Nat
  probability : Nat
deriving DecidableEq, Repr

namespace Thresholds

def defaultProbability : Nat := 10

def text (t : Thresholds) : String := s!"{t.low} {t.high} {t.probability}"

/-- The rules that a pair breaks next to a queue limit in its own unit. -/
def failures (t : Thresholds) (limit : Option Nat) (path : String) : List CheckFailure :=
  if t.high ≤ t.low then
    [⟨s!"WRED min-threshold {t.low} must be less than max-threshold {t.high}", path⟩]
  else match limit with
    | some n =>
      if n ≤ t.high then
        [⟨s!"WRED max-threshold {t.high} must be less than the queue limit {n}", path⟩]
      else []
    | none => []

end Thresholds

def defaultFilterWeight : Nat := 10

/-- The detection of a traffic class. -/
structure Wred where
  colour : Colour
  thresholds : Thresholds
  weight : Nat
deriving DecidableEq, Repr

namespace Wred

/-- Reads a detection container; without both thresholds there is no detection. -/
def ofValue? (v : Value) : Option Wred := do
  let low ← v.word? "min-threshold"
  let high ← v.word? "max-threshold"
  let probability := (v.word? "mark-probability").getD Thresholds.defaultProbability
  return ⟨.green, ⟨low, high, probability⟩, (v.word? "filter-weight").getD defaultFilterWeight⟩

def text (w : Wred) : String :=
  s!" red {w.colour.index} {w.thresholds.text} wred_weight {w.weight}"

def failures (w : Wred) (limit : Option Nat) (path : String) : List CheckFailure :=
  w.thresholds.failures limit path

end Wred

/-- The thresholds of one DSCP group. -/
structure WredGroup where
  group : String
  thresholds : Thresholds
deriving DecidableEq, Repr

def WredGroup.ofValue (v : Value) : Outcome WredGroup := do
  let group ← v.requireText "group-name" "wred-map dscp-group"
  return ⟨group, (v.word? "min-threshold").getD 0, (v.word? "max-threshold").getD 0,
    (v.word? "mark-probability").getD Thresholds.defaultProbability⟩

def WredGroup.text (g : WredGroup) : String := s!" dscp-group {g.group} {g.thresholds.text}"

/-- The detection of a pipe queue, in one unit. -/
structure WredMap where
  unit : LimitUnit
  weight : Nat
  groups : List WredGroup
deriving DecidableEq, Repr

namespace WredMap

/-- The containers of a queue that hold a detection, and their units. -/
def containers : List (String × LimitUnit) :=
  [("wred-map", .packets), ("wred-map-bytes", .bytes), ("wred-map-time", .time)]

def ofValue (unit : LimitUnit) (v : Value) : Outcome WredMap := do
  let groups ← (v.items "dscp-group").mapM WredGroup.ofValue
  return ⟨unit, (v.word? "filter-weight").getD defaultFilterWeight, groups⟩

/-- Every detection configured on a queue. -/
def ofQueue (queue : Value) : Outcome (List WredMap) :=
  (containers.filterMap fun (key, unit) => (queue.field? key).map fun v => (unit, v)).mapM
    fun (unit, v) => ofValue unit v

def text (m : WredMap) : String :=
  s!" wred_weight {m.weight}" ++ String.join (m.groups.map WredGroup.text)

/-- The rules that the groups break next to a queue limit, which counts when it is
in the unit of the map. -/
def failures (m : WredMap) (limit : Option QueueLimit) (path : String) : List CheckFailure :=
  m.groups.flatMap fun g =>
    g.thresholds.failures (limit.bind (·.sizeIn? m.unit)) s!"{path}/dscp-group/{g.group}"

end WredMap
end QosControl
