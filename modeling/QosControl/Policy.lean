import QosControl.Shaper

/-! # Policies

A named shaper that ports and VLANs share, and objects together with their users.
Users take no part in comparing an object.
-/
namespace QosControl
open Json

structure Policy where
  name : String
  shaper : Shaper
deriving DecidableEq

namespace Policy

def ofValue (v : Value) : Outcome Policy := do
  let name ← v.requireText "id" "policy"
  return ⟨name, ← Shaper.ofValue ((v.field? "shaper").getD .null)⟩

def path (p : Policy) : String := s!"policy/qos/name/{p.name}"

def failures (p : Policy) (globals : Profiles) : List CheckFailure :=
  p.shaper.failures globals s!"{p.path}/shaper"

end Policy

/-- An object with its users in the order in which they came, each once. -/
structure Shared (α β : Type) where
  object : α
  users : List β
deriving DecidableEq

namespace Shared
variable {α β : Type}

def unused (a : α) : Shared α β := ⟨a, []⟩

def addUser [DecidableEq β] (s : Shared α β) (b : β) : Shared α β :=
  if b ∈ s.users then s else { s with users := s.users ++ [b] }

def dropUser [DecidableEq β] (s : Shared α β) (b : β) : Shared α β :=
  { s with users := s.users.filter (· ≠ b) }

/-- An object with a list of users, of which repetitions do not count. -/
def addUsers [DecidableEq β] (s : Shared α β) (bs : List β) : Shared α β := bs.foldl addUser s

end Shared
end QosControl
