/-! # Commands

What a dataplane receives: an operation on a configuration path, a target and one
line of text in the dataplane's grammar.
-/
namespace QosControl

inductive Operation where
  /-- Create or overwrite. -/
  | set
  /-- Remove. -/
  | delete
deriving DecidableEq, Repr

def Operation.text : Operation → String
  | .set => "SET"
  | .delete => "DELETE"

/-- The target of a command that is not for one interface. -/
def everyTarget : String := "ALL"

structure Command where
  operation : Operation
  target : String
  text : String
  path : String
deriving DecidableEq, Repr

/-- The command as one line of a log. -/
def Command.line (c : Command) : String := s!"{c.operation.text} {c.target} {c.text}"

end QosControl
