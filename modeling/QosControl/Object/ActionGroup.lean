import QosControl.Object.Basic

/-! # Action groups

Named markings and policers that match rules refer to.
-/
namespace QosControl
open Json

structure ActionGroup where
  name : String
  mark : Option Marking
  police : Option Policer
deriving DecidableEq, Repr

namespace ActionGroup

def ofValue (v : Value) : Outcome ActionGroup := do
  let name ← v.requireText "id" "action-group"
  return ⟨name, (v.field? "mark").bind Marking.ofValue?, (v.field? "police").map Policer.ofValue⟩

/-- The chain of result-processing steps. -/
def chain (g : ActionGroup) : String := stepChain (processingSteps g.mark g.police)

def failures (g : ActionGroup) : List CheckFailure :=
  g.police.toList.flatMap fun p => p.failures s!"policy/action/name/{g.name}/police"

instance : Provisioned ActionGroup where
  kind := .actionGroup
  name := name
  lines g := [g.chain]
  portMap := none
  deferrable _ := false

end ActionGroup
end QosControl
