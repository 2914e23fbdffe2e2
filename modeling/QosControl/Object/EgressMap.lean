import QosControl.Object.Basic

/-! # Egress maps

Maps that set the DSCP of a leaving packet, by its designation or its DSCP group.
Entries with an unknown group or code point are skipped.
-/
namespace QosControl
open Json

inductive EgressEntry where
  | designation (designation codePoint : Nat)
  | dscpGroup (group : String) (codePoints : List Nat) (remark : Nat)
deriving DecidableEq, Repr

def EgressEntry.line : EgressEntry → String
  | .designation d n => s!"designation {d} dscp {n}"
  | .dscpGroup _ dscp n => s!"dscp {codePointList dscp} remark {n}"

structure EgressMap where
  name : String
  entries : List EgressEntry
deriving DecidableEq, Repr

namespace EgressMap

def designationEntry (v : Value) : Outcome (List EgressEntry) := do
  let designation ← v.requireWord "id" "egress-map designation"
  let dscp ← v.requireText "dscp" "egress-map designation"
  return ((codePoint? dscp.toList).map (EgressEntry.designation designation)).toList

def groupEntry (groups : DscpGroups) (v : Value) : Outcome (List EgressEntry) := do
  let group ← v.requireText "id" "egress-map dscp-group"
  let dscp ← v.requireText "dscp" "egress-map dscp-group"
  match groups.get? group, codePoint? dscp.toList with
  | some codePoints, some remark => return [.dscpGroup group codePoints remark]
  | _, _ => return []

def ofValue (groups : DscpGroups) (v : Value) : Outcome EgressMap := do
  let name ← v.requireText "id" "egress-map"
  let byDesignation ← (v.items "designation").mapM designationEntry
  let byGroup ← (v.items "dscp-group").mapM (groupEntry groups)
  return ⟨name, byDesignation.flatten ++ byGroup.flatten⟩

instance : Provisioned EgressMap where
  kind := .egressMap
  name := name
  lines m := m.entries.map EgressEntry.line ++ ["complete"]
  portMap := some .egress
  deferrable _ := true

end EgressMap
end QosControl
