import QosControl.Directive

/-! # Platform parameters

Switches that hold for every port, and the instructions that change them.
-/
namespace QosControl
open Json

structure Platform where
  /-- The shared buffer threshold in percent. -/
  bufferThreshold : Option Nat
  /-- The designation that is treated as local priority. -/
  localPriority : Option Nat
deriving DecidableEq, Repr

namespace Platform

def unset : Platform := ⟨none, none⟩

/-- Reads the platform container below the QoS node. -/
def ofValue (qos : Value) : Platform where
  bufferThreshold := (qos.field? "platform").bind (·.word? "buffer-threshold")
  localPriority := (qos.field? "platform").bind (·.word? "local-priority-designation")

def switches (p : Platform) : List (PlatformSwitch × Option Nat) :=
  [(.bufferThreshold, p.bufferThreshold), (.localPriority, p.localPriority)]

def value (p : Platform) : PlatformSwitch → Option Nat
  | .bufferThreshold => p.bufferThreshold
  | .localPriority => p.localPriority

/-- Clears the switches that lose their value. -/
def clearing (old new : Platform) : List Instruction :=
  old.switches.filterMap fun (s, v) =>
    if v.isSome && (new.value s).isNone then some (.clearSwitch s) else none

/-- Sets the switches that get another value. -/
def setting (old new : Platform) : List Instruction :=
  new.switches.filterMap fun (s, v) =>
    if v = old.value s then none else v.map (.setSwitch s)

end Platform
end QosControl
