import QosControl.Interface
import QosControl.Membership

/-! # Rosters

The interfaces of a configuration in order, each name once. LAG entries come first
and replace what an earlier LAG entry said of the same port; a port entry counts
only when nothing before it took the name.
-/
namespace QosControl
open Json

structure Roster where
  interfaces : List Interface
  distinct : (interfaces.map (·.name)).Nodup

namespace Roster

def empty : Roster := ⟨[], List.Pairwise.nil⟩

def names (r : Roster) : List String := r.interfaces.map (·.name)

/-- Puts an interface in the place of the one of its name. -/
def replace (i : Interface) (is : List Interface) : List Interface :=
  is.map fun j => if j.name = i.name then i else j

theorem names_replace (i : Interface) (is : List Interface) :
    (replace i is).map (·.name) = is.map (·.name) := by
  simp only [replace, List.map_map]
  refine List.map_congr_left fun j _ => ?_
  simp only [Function.comp_apply]
  split
  · next h => exact h.symm
  · rfl

theorem nodup_append_new {is : List Interface} {i : Interface}
    (h : (is.map (·.name)).Nodup) (hi : i.name ∉ is.map (·.name)) :
    ((is ++ [i]).map (·.name)).Nodup := by
  rw [List.map_append, List.nodup_append]
  refine ⟨h, by simp, fun a ha b hb => ?_⟩
  simp only [List.map_cons, List.map_nil, List.mem_singleton] at hb
  exact fun hab => hi (hb ▸ hab ▸ ha)

/-- Adds an interface unless its name is taken. -/
def add (r : Roster) (i : Interface) : Roster :=
  if h : i.name ∈ r.interfaces.map (·.name) then r
  else ⟨r.interfaces ++ [i], nodup_append_new r.distinct h⟩

/-- Adds an interface or replaces the one of its name, which keeps its place. -/
def put (r : Roster) (i : Interface) : Roster :=
  if h : i.name ∈ r.interfaces.map (·.name) then
    ⟨replace i r.interfaces, by rw [names_replace]; exact r.distinct⟩
  else ⟨r.interfaces ++ [i], nodup_append_new r.distinct h⟩

/-- The interfaces of a LAG entry: its member ports where a membership is known,
the LAG itself otherwise. -/
def ofLag (membership : Option Membership) (lag : Value) : Outcome (List Interface) :=
  match membership with
  | none => do return (← Interface.ofValue? .bonding lag).toList
  | some m => do
    let group ← lag.requireText "tagnode" "bonding"
    let ports ← (m.members group).mapM fun x => Interface.memberPort? x.port (some lag)
    return ports.filterMap id

def ofTree (tree : Value) (membership : Option Membership) : Outcome Roster := do
  let interfaces := (tree.field? Schema.interfaces).getD .null
  let lags ← (interfaces.items Schema.bonding).mapM (ofLag membership)
  let ports ← (interfaces.items Schema.dataplane).mapM (Interface.ofValue? .dataplane)
  return (ports.filterMap id).foldl add (lags.flatten.foldl put empty)

end Roster
end QosControl
