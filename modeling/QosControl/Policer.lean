import QosControl.Dscp
import QosControl.Rate.Bandwidth

/-! # Markings and policers

Remarking of packet fields, and single-rate policers. A policer takes a rate in
bytes or in packets per second, never both, and marks or drops what exceeds it.
-/
namespace QosControl
open Json

/-- A packet field and the value it is set to. -/
inductive Marking where
  | dscp (codePoint : Nat)
  | pcp (value : Nat)
deriving DecidableEq, Repr

/-- Reads a marking. A DSCP leaf rules out the PCP leaf, even when it is invalid. -/
def Marking.ofValue? (v : Value) : Option Marking :=
  match v.text? "dscp" with
  | some s => (codePoint? s.toList).map .dscp
  | none => do
    let n ← v.word? "pcp"
    if n ≤ maxPcp then some (.pcp n) else none

/-- The result-processing step of a marking. -/
def Marking.step : Marking → String
  | .dscp n => s!"markdscp({n})"
  | .pcp n => s!"markpcp({n},none)"

/-- What happens to packets over the rate. -/
inductive ExceedAction where
  | drop
  | mark (marking : Marking)
deriving DecidableEq, Repr

def ExceedAction.text : ExceedAction → String
  | .drop => "drop"
  | .mark (.dscp n) => s!"markdscp={n}"
  | .mark (.pcp n) => s!"markpcp={n}"

/-- Anything but a valid marking drops. -/
def ExceedAction.ofValue (v : Value) : ExceedAction :=
  if v.string? "action" = some "mark" then
    match (v.field? "mark").bind Marking.ofValue? with
    | some m => .mark m
    | none => .drop
  else .drop

structure Policer where
  /-- Bytes per second, when a bandwidth is given that can be read. -/
  bandwidth : Option Nat
  /-- Packets per second, when a packet rate is given that can be read. -/
  packetRate : Option Nat
  bandwidthGiven : Bool
  packetRateGiven : Bool
  burst : Nat
  frameOverhead : Nat
  period : Nat
  action : ExceedAction
deriving DecidableEq, Repr

namespace Policer

def defaultFrameOverhead : Nat := 24

def defaultPeriod : Nat := 20

def ofValue (v : Value) : Policer where
  bandwidth := (v.text? "bandwidth").bind Rate.bandwidth?
  packetRate := (v.text? "ratelimit").bind Rate.packets?
  bandwidthGiven := (v.text? "bandwidth").isSome
  packetRateGiven := (v.text? "ratelimit").isSome
  burst := (v.word? "burst").getD defaultBurst
  frameOverhead := (v.word? "frame-overhead").getD defaultFrameOverhead
  period := (v.word? "tc").getD defaultPeriod
  action := match v.field? "then" with
    | some w => ExceedAction.ofValue w
    | none => .drop

/-- The result-processing step of a policer. -/
def step (p : Policer) : String :=
  s!"policer({p.bandwidth.getD 0},{p.burst},{p.packetRate.getD 0},{p.action.text},{p.frameOverhead},{p.period})"

def failures (p : Policer) (path : String) : List CheckFailure :=
  if p.bandwidthGiven && p.packetRateGiven then
    [⟨"Cannot configure both bandwidth and ratelimit on the same policer", path⟩]
  else []

end Policer
end QosControl
