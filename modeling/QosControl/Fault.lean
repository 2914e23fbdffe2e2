/-! # Faults

What can go wrong between reading a configuration and delivering its commands,
and the wording of each fault. A check failure names the configuration node that
the operator has to mend.
-/
namespace QosControl

/-- A structural rule that a configuration breaks, and the node where it does. -/
structure CheckFailure where
  message : String
  path : String
deriving DecidableEq, Repr

namespace CheckFailure

def text (f : CheckFailure) : String := s!"{f.message} (at {f.path})"

end CheckFailure

inductive Fault where
  /-- A required value is missing or malformed. -/
  | invalidConfig (field message : String)
  | check (failure : CheckFailure)
  /-- A caller broke a rule of the interface. -/
  | contract (message : String)
  /-- A dataplane refused a command part way through a pass. -/
  | transport (command message : String)
  /-- Saved state could not be read or written. -/
  | io (path reason : String)
  /-- Saved state or a notification is malformed. -/
  | json (context reason : String)
  | internal (message : String)
deriving DecidableEq, Repr

namespace Fault

def message : Fault → String
  | .invalidConfig field message => s!"Invalid configuration for {field}: {message}"
  | .check failure => s!"Configuration check failed: {failure.text}"
  | .contract message => s!"Contract violation: {message}"
  | .transport command message =>
    s!"Failed to send '{command}': {message}; QoS state may be inconsistent, re-apply configuration"
  | .io path reason => s!"I/O error on {path}: {reason}"
  | .json context reason => s!"Malformed JSON in {context}: {reason}"
  | .internal message => s!"Internal error: {message}"

/-- Whether changing the configuration and committing again can mend the fault. -/
def recoverable : Fault → Bool
  | .invalidConfig .. | .check .. | .transport .. => true
  | _ => false

end Fault

/-- A result, or the fault that prevented it. -/
abbrev Outcome := Except Fault

end QosControl
