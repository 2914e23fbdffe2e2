import QosControl.Policer

/-! # Match rules

What a class matches on and what happens to the packets it matches. A rule is
rendered as a list of settings, in a fixed order, without those not configured.
-/
namespace QosControl
open Json

structure Endpoint where
  address : Option String
  port : Option String
deriving DecidableEq, Repr

def Endpoint.ofField (v : Value) (key : String) : Endpoint where
  address := (v.field? key).bind (·.text? "address")
  port := (v.field? key).bind (·.text? "port")

inductive RuleAction where
  | accept
  | drop
deriving DecidableEq, Repr

def RuleAction.text : RuleAction → String
  | .accept => "accept"
  | .drop => "drop"

structure Rule where
  id : String
  action : RuleAction
  protocol : Option Nat
  source : Endpoint
  destination : Endpoint
  dscp : Option Nat
  pcp : Option Nat
  mark : Option Marking
  police : Option Policer
  actionGroup : Option String
  log : Bool
deriving DecidableEq, Repr

/-- Result-processing steps joined into a chain. -/
def stepChain (steps : List String) : String := String.intercalate ";" steps

/-- The steps of a marking and a policer, where there are any. -/
def processingSteps (mark : Option Marking) (police : Option Policer) : List String :=
  (mark.map Marking.step).toList ++ (police.map Policer.step).toList

namespace Rule

/-- Reads a rule. Values out of range are dropped, and every action but a drop accepts. -/
def ofValue (v : Value) : Outcome Rule := do
  let id ← v.requireText "id" "match"
  return {
    id
    action := if v.string? "action" = some "drop" then .drop else .accept
    protocol := (v.text? "protocol").bind protocolNumber?
    source := Endpoint.ofField v "source"
    destination := Endpoint.ofField v "destination"
    dscp := (v.text? "dscp").bind fun s => codePoint? s.toList
    pcp := (v.word? "pcp").bind fun n => if n ≤ maxPcp then some n else none
    mark := (v.field? "mark").bind Marking.ofValue?
    police := (v.field? "police").map Policer.ofValue
    actionGroup := v.text? "action-group"
    log := v.flag "log" }

/-- The result-processing steps of a rule. -/
def steps (r : Rule) : List String :=
  processingSteps r.mark r.police ++ (r.actionGroup.map fun g => s!"action-group({g})").toList

def setting (name : String) (value : Option String) : List String :=
  (value.map fun s => s!"{name}={s}").toList

/-- The settings of a rule of the given class. -/
def settings (r : Rule) (cls : Nat) : List String :=
  setting "action" r.action.text ++
  setting "proto-final" (r.protocol.map Text.decimal) ++
  setting "src-addr" r.source.address ++
  setting "src-port" r.source.port ++
  setting "dst-addr" r.destination.address ++
  setting "dst-port" r.destination.port ++
  setting "dscp" (r.dscp.map Text.decimal) ++
  setting "pcp" (r.pcp.map Text.decimal) ++
  setting "handle" s!"tag({cls})" ++
  (if r.steps.isEmpty then [] else setting "rproc" (stepChain r.steps)) ++
  (if r.log then setting "log" "1" else [])

def text (r : Rule) (cls : Nat) : String := String.intercalate " " (r.settings cls)

def failures (r : Rule) (path : String) : List CheckFailure :=
  r.police.toList.flatMap fun p => p.failures s!"{path}/match/{r.id}/police"

end Rule
end QosControl
