import QosControl.Text.Blank
import QosControl.Text.Caseless

/-! # Queue limits

Units of queue lengths and thresholds, explicit queue limits, and the unit in which
a platform counts limits that are not configured.
-/
namespace QosControl
open Text

inductive LimitUnit where
  | packets
  | bytes
  | time
deriving DecidableEq, Repr

def LimitUnit.keyword : LimitUnit → String
  | .packets => "packets"
  | .bytes => "bytes"
  | .time => "msec"

structure QueueLimit where
  unit : LimitUnit
  size : Nat
deriving DecidableEq, Repr

def QueueLimit.text (l : QueueLimit) : String := s!"limit {l.unit.keyword} {l.size}"

/-- The limit counted in the given unit, if it is. -/
def QueueLimit.sizeIn? (l : QueueLimit) (unit : LimitUnit) : Option Nat :=
  if l.unit = unit then some l.size else none

/-- The unit in which a platform counts limits. -/
inductive LimitCapability where
  | packets
  | bytes
deriving DecidableEq, Repr

def defaultPacketLimit : Nat := 64

def defaultByteLimit : Nat := 96000

namespace LimitCapability

/-- Reads the name of a capability; case and surrounding white space do not count. -/
def ofText? (s : String) : Option LimitCapability :=
  let name := String.ofList (lowerFull (trim s.toList))
  if name ∈ ["packets", "packet", "packet-limits"] then some .packets
  else if name ∈ ["bytes", "byte", "byte-limits"] then some .bytes
  else none

/-- The capability of an environment setting: packets, unless the setting is valid. -/
def ofSetting (setting : Option String) : LimitCapability := (setting.bind ofText?).getD .packets

/-- The limit of a queue without one of its own. -/
def defaultLimit : LimitCapability → QueueLimit
  | .packets => ⟨.packets, defaultPacketLimit⟩
  | .bytes => ⟨.bytes, defaultByteLimit⟩

/-- The default limit as the header of a port carries it. -/
def portText : LimitCapability → String
  | .packets => s!"ql_packets {defaultPacketLimit}"
  | .bytes => s!"ql_bytes {defaultByteLimit}"

end LimitCapability
end QosControl
