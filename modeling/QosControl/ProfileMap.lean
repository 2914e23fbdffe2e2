import QosControl.PipeQueue

/-! # Profile maps

Maps from packet markings to pipe queues. In maps by DSCP group and by designation
the entries that target one queue get ascending drop precedences, in the order in
which they are configured.
-/
namespace QosControl
open Json

/-- What a map classifies on. -/
inductive MapKind where
  | dscpGroup
  | dscp
  | pcp
  | designation
deriving DecidableEq, Repr

namespace MapKind

/-- The kinds, the one first that wins when several are configured. -/
def all : List MapKind := [.dscpGroup, .dscp, .pcp, .designation]

def key : MapKind → String
  | .dscpGroup => "dscp-group"
  | .dscp => "dscp"
  | .pcp => "pcp"
  | .designation => "designation"

/-- The leaf of an entry that names its queue. -/
def targetKey : MapKind → String
  | .designation => "queue"
  | _ => "to"

def countsPrecedence : MapKind → Bool
  | .dscpGroup | .designation => true
  | _ => false

end MapKind

structure MapEntry where
  key : String
  queue : Nat
deriving DecidableEq, Repr

structure ProfileMap where
  kind : MapKind
  entries : List MapEntry
deriving DecidableEq, Repr

/-- How many entries have used each queue so far. A count is kept as a byte and stays at its
greatest value. -/
structure QueueUses where
  counts : Table Nat Nat

namespace QueueUses

def empty : QueueUses := ⟨.empty⟩

def count (uses : QueueUses) (queue : Nat) : Nat := (uses.counts.get? queue).getD 0

def add (uses : QueueUses) (queue : Nat) : QueueUses :=
  ⟨uses.counts.insert queue (min (uses.count queue + 1) (Text.wordMax 8))⟩

end QueueUses

namespace ProfileMap

def entryOfValue (kind : MapKind) (v : Value) : Outcome MapEntry := do
  let key ← v.requireText "id" kind.key
  let queue ← v.requireWord kind.targetKey kind.key
  return ⟨key, queue⟩

/-- Reads a map container, which holds no map when it has none of the kinds. -/
def ofValue? (v : Value) : Outcome (Option ProfileMap) :=
  match MapKind.all.find? fun k => (v.field? k.key).isSome with
  | none => .ok none
  | some kind => do
    return some ⟨kind, ← (v.items kind.key).mapM (entryOfValue kind)⟩

/-- Each entry with the count of its queue, which the entry then raises. -/
def countEarlier : QueueUses → List MapEntry → List (MapEntry × Nat)
  | _, [] => []
  | uses, e :: es => (e, uses.count e.queue) :: countEarlier (uses.add e.queue) es

/-- The entries with their drop precedences. -/
def withPrecedence (m : ProfileMap) : List (MapEntry × Nat) :=
  if m.kind.countsPrecedence then countEarlier .empty m.entries else m.entries.map fun e => (e, 0)

/-- What the lines of an entry match on; an entry that cannot be read has no line. -/
def classifiers (kind : MapKind) (key : String) : List Classifier :=
  match kind with
  | .dscpGroup => [.dscpGroup key]
  | .designation => [.designation key]
  | .dscp => ((codePoints? key).getD []).map .dscp
  | .pcp => match Text.readByte key.toList with
    | some n => if n ≤ maxPcp then [.pcp key n] else []
    | none => []

def directives (m : ProfileMap) (profile : Nat) (queues : PipeQueues) : List PortDirective :=
  m.withPrecedence.flatMap fun (e, precedence) =>
    (classifiers m.kind e.key).map fun c => .classify profile c (queues.qmap e.queue precedence)

end ProfileMap
end QosControl
