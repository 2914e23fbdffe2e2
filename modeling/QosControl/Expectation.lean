import QosControl.Command
import QosControl.Text.Quoted

/-! # Expectations

Conditions on a delivered command stream, and what is reported when one does not
hold. Commands are found by a text that occurs in them.
-/
namespace QosControl

/-- Whether a text occurs in another. -/
def occursIn (pattern : List Char) : List Char → Bool
  | [] => pattern.isEmpty
  | c :: cs => pattern.isPrefixOf (c :: cs) || occursIn pattern cs

def Command.mentions (pattern : String) (c : Command) : Bool :=
  occursIn pattern.toList c.text.toList

inductive Violation where
  | notFound (expected : String) (actual : List String)
  | unexpected (command : String)
  | count (pattern : String) (expected actual : Nat)
  | order (first second : String)
  | sequence (expected actual : List String)
deriving DecidableEq, Repr

def Violation.message : Violation → String
  | .notFound expected actual =>
    s!"Expected command '{expected}' not found in {Text.quotedList actual}"
  | .unexpected command => s!"Unexpected command '{command}'"
  | .count pattern expected actual =>
    s!"Expected {expected} commands matching '{pattern}', found {actual}"
  | .order first second => s!"Command '{first}' must precede '{second}'"
  | .sequence expected actual =>
    s!"Command stream mismatch: expected {Text.quotedList expected}, got {Text.quotedList actual}"

inductive Expectation where
  /-- Some command mentions the text. -/
  | executed (pattern : String)
  | notExecuted (pattern : String)
  /-- So many commands were sent. -/
  | count (n : Nat)
  /-- So many commands mention the text. -/
  | matching (pattern : String) (n : Nat)
  /-- The last mention of the first text comes before the first one of the second. -/
  | order (first second : String)
  /-- Exactly these texts were sent. -/
  | sequence (texts : List String)
  /-- The stream ends in its only commit. -/
  | committed
  /-- Every target is one of these or all. -/
  | targets (names : List String)
deriving DecidableEq, Repr

namespace Expectation

def texts (cs : List Command) : List String := cs.map (·.text)

def executed? (cs : List Command) (pattern : String) : Option Violation :=
  if cs.any (·.mentions pattern) then none else some (.notFound pattern (texts cs))

def matching? (cs : List Command) (pattern : String) (n : Nat) : Option Violation :=
  let actual := cs.countP (·.mentions pattern)
  if actual = n then none else some (.count pattern n actual)

/-- The position of the last command that mentions a text. -/
def lastMention? (cs : List Command) (pattern : String) : Option Nat :=
  ((cs.mapIdx fun i c => (i, c)).filter fun p => p.2.mentions pattern).getLast?.map (·.1)

def order? (cs : List Command) (first second : String) : Option Violation :=
  match lastMention? cs first, cs.findIdx? (·.mentions second) with
  | some a, some b => if a < b then none else some (.order first second)
  | none, _ => executed? cs first
  | _, none => executed? cs second

def commitText : String := "qos commit"

def isCommit (c : Command) : Bool :=
  c.text = commitText ∧ c.target = everyTarget ∧ c.operation = .set

def committed? (cs : List Command) : Option Violation :=
  match matching? cs commitText 1 with
  | some v => some v
  | none => if cs.getLast?.any isCommit then none else some (.order "everything" commitText)

/-- What is wrong with a stream, if anything. -/
def violation? (cs : List Command) : Expectation → Option Violation
  | .executed pattern => executed? cs pattern
  | .notExecuted pattern => (cs.find? (·.mentions pattern)).map fun c => .unexpected c.text
  | .count n => matching? cs "" n
  | .matching pattern n => matching? cs pattern n
  | .order first second => order? cs first second
  | .sequence expected => if texts cs = expected then none else some (.sequence expected (texts cs))
  | .committed => committed? cs
  | .targets names =>
    (cs.find? fun c => c.target ≠ everyTarget ∧ c.target ∉ names).map fun c => .unexpected c.line

end Expectation
end QosControl
