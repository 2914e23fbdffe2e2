import QosControl.Dataplane
import QosControl.Json.Printer
import QosControl.Plan

/-! # The manager

Remembers the tree that every dataplane accepted last and turns each new tree and
each LAG membership change into one pass. A tree is remembered once its whole stream
was delivered, so that a pass that fails is planned again in full.
-/
namespace QosControl
open Json

/-- What is found at a place where a tree may be saved. -/
inductive StateFile where
  | absent
  | text (content : String)
  /-- Something is there that can be neither read nor replaced, such as a directory. -/
  | blocked
  /-- Nothing is there, and nothing can be put there. -/
  | unreachable
deriving DecidableEq, Repr

def emptyTree : Value := .object []

namespace StateFile

/-- Loads the saved tree, which is empty when nothing was saved. -/
def load (f : StateFile) (path : String) : Outcome Value :=
  match f with
  | .absent | .unreachable => .ok emptyTree
  | .blocked => .error (.io path "cannot be read")
  | .text s => match Value.ofText? s with
    | some v => .ok v
    | none => .error (.json path "malformed")

def writable : StateFile → Bool
  | .absent | .text _ => true
  | .blocked | .unreachable => false

/-- Replaces the saved tree. The tree is written to a draft first, which then takes its place. -/
def save (f draft : StateFile) (path : String) (tree : Value) : Outcome StateFile :=
  if draft.writable && f.writable then .ok (.text (tree.pretty 0))
  else .error (.io path "cannot be replaced")

/-- Where the draft of a saved tree is written: beside it, with the ending `.tmp` for its own.
A name that starts with its only dot has no ending. Where a lone dot stands before the ending,
the two dots stay and nothing else: that is the folder above, which takes no draft. -/
def draftPath (path : String) : String :=
  let cs := path.toList.reverse
  let name := cs.takeWhile (· ≠ '/')
  let draft := match (name.dropWhile (· ≠ '.')).tail with
    | [] => name.reverse ++ ".tmp".toList
    | ['.'] => ['.', '.']
    | stem => stem.reverse ++ ".tmp".toList
  String.ofList ((cs.dropWhile (· ≠ '/')).reverse ++ draft)

end StateFile

structure Manager where
  platform : LimitCapability
  lastApplied : Value
  membership : Membership
  /-- Where the last applied tree is saved, if anywhere. -/
  statePath : Option String

/-- Everything a manager acts on: the dataplanes of a pass, the saved state and the place of
its draft. -/
structure Surroundings where
  dataplanes : List Dataplane
  state : StateFile
  draft : StateFile

namespace Manager

def name : String := "qosmgrd"

def new (platform : LimitCapability) : Manager := ⟨platform, emptyTree, .empty, none⟩

/-- Restores the saved tree and saves to the same place from then on. -/
def withState (m : Manager) (path : String) (state : StateFile) : Outcome Manager := do
  return { m with lastApplied := ← state.load path, statePath := some path }

def withMembership (m : Manager) (membership : Membership) : Manager := { m with membership }

def snapshot (m : Manager) (tree : Value) : Outcome Snapshot := Snapshot.ofTree tree (some m.membership)

/-- The plan from the last applied tree to a new one, which has to pass every check. -/
def plan (m : Manager) (tree : Value) : Outcome Plan := do
  let new ← m.snapshot tree
  new.check
  let old ← m.snapshot m.lastApplied
  return Plan.between old new m.platform

def persist (m : Manager) (s : Surroundings) : Outcome StateFile :=
  match m.statePath with
  | some path => s.state.save s.draft path m.lastApplied
  | none => .ok s.state

/-- Applies a new tree. A tree that was delivered is remembered even when it cannot be
saved. -/
def apply (m : Manager) (tree : Value) (s : Surroundings) : Outcome Plan × Manager × Surroundings :=
  match m.plan tree with
  | .error f => (.error f, m, s)
  | .ok plan =>
    match Dataplane.deliver plan.commands s.dataplanes with
    | (ds, some f) => (.error f, m, { s with dataplanes := ds })
    | (ds, none) =>
      let m := { m with lastApplied := tree }
      match m.persist s with
      | .error f => (.error f, m, { s with dataplanes := ds })
      | .ok state => (.ok plan, m, { s with dataplanes := ds, state })

def changeMembership (m : Manager) (membership : Membership) (s : Surroundings) :
    Outcome Plan × Manager × Surroundings :=
  match Plan.forMembershipChange m.lastApplied m.membership membership m.platform with
  | .error f => (.error f, m, s)
  | .ok plan =>
    match Dataplane.deliver plan.commands s.dataplanes with
    | (ds, some f) => (.error f, m, { s with dataplanes := ds })
    | (ds, none) => (.ok plan, m.withMembership membership, { s with dataplanes := ds })

end Manager
end QosControl
