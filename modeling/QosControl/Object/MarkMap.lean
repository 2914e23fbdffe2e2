import QosControl.Object.Basic

/-! # Mark maps

Maps that set the PCP of packets leaving a subport, by DSCP group or by designation
and colour. Entries for unknown groups or colours are skipped.
-/
namespace QosControl
open Json

inductive MarkEntry where
  | dscpGroup (group : String) (codePoints : List Nat) (pcp : Nat)
  | designation (designation : Nat) (colour : Colour) (pcp : Nat)
deriving DecidableEq, Repr

def MarkEntry.line : MarkEntry → String
  | .dscpGroup _ dscp pcp => s!"dscp {codePointList dscp} pcp {pcp}"
  | .designation d colour pcp => s!"designation {d} drop-prec {colour.text} pcp {pcp}"

structure MarkMap where
  name : String
  entries : List MarkEntry
deriving DecidableEq, Repr

namespace MarkMap

def groupEntry (groups : DscpGroups) (v : Value) : Outcome (List MarkEntry) := do
  let group ← v.requireText "group-name" "mark-map dscp-group"
  let pcp ← v.requireWord "pcp-mark" "mark-map dscp-group"
  return ((groups.get? group).map fun dscp => MarkEntry.dscpGroup group dscp pcp).toList

def colourEntry (designation : Nat) (v : Value) : Outcome (List MarkEntry) := do
  match Colour.ofText? (← v.requireText "id" "mark-map drop-precedence") with
  | some colour =>
    let pcp ← v.requireWord "pcp-mark" "mark-map drop-precedence"
    return [.designation designation colour pcp]
  | none => return []

/-- A designation has a mark of its own, which is for green packets, and marks by colour. -/
def designationEntries (v : Value) : Outcome (List MarkEntry) := do
  let designation ← v.requireWord "id" "mark-map designation"
  let own := (v.word? "pcp-mark").map (MarkEntry.designation designation .green)
  return own.toList ++ (← (v.items "drop-precedence").mapM (colourEntry designation)).flatten

def ofValue (groups : DscpGroups) (v : Value) : Outcome MarkMap := do
  let name ← v.requireText "id" "mark-map"
  let byGroup ← (v.items "dscp-group").mapM (groupEntry groups)
  let byDesignation ← (v.items "designation").mapM designationEntries
  return ⟨name, byGroup.flatten ++ byDesignation.flatten⟩

instance : Provisioned MarkMap where
  kind := .markMap
  name := name
  lines m := m.entries.map MarkEntry.line
  portMap := none
  deferrable _ := false

end MarkMap
end QosControl
