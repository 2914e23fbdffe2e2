import QosControl.Field
import QosControl.Rate.Grammar

/-! # Shaping rates

The rate and the burst of one shaping level. A rate is absolute or a percentage of
the rate of the level above; a rate that cannot be read counts as zero, and so does
a percentage where there is no level above.
-/
namespace QosControl
open Json

inductive Rate where
  /-- Bytes per second, or none when the text was no bandwidth. -/
  | absolute (bytes : Option Nat)
  | percent (share : Binary64)
deriving DecidableEq, Repr

def Rate.ofText (s : String) : Rate :=
  match Rate.percent? s with
  | some share => .percent share
  | none => .absolute (Rate.bandwidth? s)

/-- The rate in bytes per second under the rate of the level above. -/
def Rate.resolve (r : Rate) (parent : Option Nat) : Nat :=
  match r, parent with
  | .absolute bytes, _ => bytes.getD 0
  | .percent share, some p => (((Binary64.ofNat p).mul share).div (.ofNat 100)).toWord
  | .percent _, none => 0

/-- The depth of a token bucket, in bytes or in milliseconds at the rate. -/
inductive Burst where
  | bytes (n : Nat)
  | msec (n : Nat)
deriving DecidableEq, Repr

def Burst.text : Burst → String
  | .bytes n => s!"size {n}"
  | .msec n => s!"msec {n}"

def defaultBurst : Nat := 16000

structure Bandwidth where
  rate : Rate
  burst : Burst
deriving DecidableEq, Repr

/-- A rate in bytes per second with its burst, as a command carries it. -/
structure Meter where
  bytes : Nat
  burst : Burst
deriving DecidableEq, Repr

def Meter.text (m : Meter) : String := s!" rate {m.bytes} {m.burst.text}"

namespace Bandwidth

/-- Reads the rate and burst leaves. A burst in bytes wins over one in milliseconds. -/
def ofValue (v : Value) (defaultRate : String) : Bandwidth where
  rate := Rate.ofText ((v.text? "bandwidth").getD defaultRate)
  burst := match v.word? "burst", v.word? "burst-msec" with
    | some n, _ => .bytes n
    | none, some n => .msec n
    | none, none => .bytes defaultBurst

def absolute (bytes : Nat) : Bandwidth := ⟨.absolute (some bytes), .bytes defaultBurst⟩

def bytesPerSecond (b : Bandwidth) (parent : Option Nat) : Nat := b.rate.resolve parent

def meter (b : Bandwidth) (parent : Option Nat) : Meter := ⟨b.bytesPerSecond parent, b.burst⟩

end Bandwidth
end QosControl
