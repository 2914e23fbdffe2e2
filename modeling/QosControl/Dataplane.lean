import QosControl.Command
import QosControl.Fault

/-! # Dataplanes

Receivers of command streams. A dataplane keeps what it received and may refuse a
command. A stream is delivered to one dataplane after the other, each in a pass of
its own, up to the first refusal; an empty stream opens no pass.
-/
namespace QosControl

structure Dataplane where
  received : List Command
  passes : Nat
  /-- The fault with which it answers a command after those it received. -/
  refusal : List Command → Command → Option Fault

namespace Dataplane

def accepting : Dataplane := ⟨[], 0, fun _ _ => none⟩

/-- A dataplane that closes after so many commands. -/
def closingAfter (n : Nat) : Dataplane :=
  ⟨[], 0, fun received c => if n ≤ received.length then some (.transport c.text "sink closed") else none⟩

def store (d : Dataplane) (c : Command) : Outcome Dataplane :=
  match d.refusal d.received c with
  | some f => .error f
  | none => .ok { d with received := d.received ++ [c] }

/-- Sends commands up to the first that is refused, with the fault of that one. -/
def send (d : Dataplane) : List Command → Dataplane × Option Fault
  | [] => (d, none)
  | c :: cs =>
    match d.store c with
    | .ok d => d.send cs
    | .error f => (d, some f)

def openPass (d : Dataplane) : Dataplane := { d with passes := d.passes + 1 }

/-- Runs one pass on each dataplane up to the first fault. -/
def sendAll (cs : List Command) : List Dataplane → List Dataplane × Option Fault
  | [] => ([], none)
  | d :: ds =>
    match d.openPass.send cs with
    | (d, some f) => (d :: ds, some f)
    | (d, none) =>
      let (ds, f) := sendAll cs ds
      (d :: ds, f)

def deliver (cs : List Command) (ds : List Dataplane) : List Dataplane × Option Fault :=
  if cs.isEmpty then (ds, none) else sendAll cs ds

end Dataplane
end QosControl
