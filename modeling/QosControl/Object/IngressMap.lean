import QosControl.Object.Basic

/-! # Ingress maps

Maps from the marking of an arriving packet to a designation and a colour. The map
that is the system default is provisioned whether or not it is bound.
-/
namespace QosControl
open Json

inductive IngressMatch where
  | pcp (value : Nat)
  | dscpGroup (group : String) (codePoints : List Nat)
deriving DecidableEq, Repr

def IngressMatch.text : IngressMatch → String
  | .pcp n => s!"pcp {n}"
  | .dscpGroup _ dscp => s!"dscp {codePointList dscp}"

structure IngressEntry where
  criterion : IngressMatch
  designation : Nat
  colour : Colour
deriving DecidableEq, Repr

def IngressEntry.line (e : IngressEntry) : String :=
  s!"{e.criterion.text} designation {e.designation} drop-prec {e.colour.text}"

structure IngressMap where
  name : String
  systemDefault : Bool
  entries : List IngressEntry
deriving DecidableEq, Repr

namespace IngressMap

/-- The designation and colour that an entry maps to; green unless a colour is named. -/
def target (v : Value) : Outcome (Nat × Colour) := do
  let designation ← v.requireWord "designation" "ingress-map"
  return (designation, ((v.string? "drop-precedence").bind Colour.ofText?).getD .green)

def pcpEntry (v : Value) : Outcome IngressEntry := do
  let pcp ← v.requireWord "id" "ingress-map pcp"
  let (designation, colour) ← target v
  return ⟨.pcp pcp, designation, colour⟩

/-- An entry for an unknown group is skipped. -/
def groupEntry (groups : DscpGroups) (v : Value) : Outcome (List IngressEntry) := do
  let group ← v.requireText "id" "ingress-map dscp-group"
  let (designation, colour) ← target v
  return ((groups.get? group).map fun dscp =>
    IngressEntry.mk (.dscpGroup group dscp) designation colour).toList

def ofValue (groups : DscpGroups) (v : Value) : Outcome IngressMap := do
  let name ← v.requireText "id" "ingress-map"
  let byPcp ← (v.items "pcp").mapM pcpEntry
  let byGroup ← (v.items "dscp-group").mapM (groupEntry groups)
  return ⟨name, v.flag "system-default", byPcp ++ byGroup.flatten⟩

instance : Provisioned IngressMap where
  kind := .ingressMap
  name := name
  lines m := m.entries.map IngressEntry.line ++
    (if m.systemDefault then ["system-default"] else []) ++ ["complete"]
  portMap := some .ingress
  deferrable m := !m.systemDefault

end IngressMap
end QosControl
