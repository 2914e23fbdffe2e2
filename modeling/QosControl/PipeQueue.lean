import QosControl.TrafficClass

/-! # Pipe queues

The queue table of a profile. Queues are placed in ascending order of their ids, each at
the next position of its traffic class. A queue that serves local priority traffic never
takes position zero.
-/
namespace QosControl
open Json

def pipeQueueCount : Nat := 32

/-- The count of positions in a traffic class. -/
def wrrCount : Nat := 8

def maxWeight : Nat := 100

structure Queue where
  id : Nat
  trafficClass : Nat
  weight : Nat
  priorityLocal : Bool
  wred : List WredMap
deriving DecidableEq, Repr

namespace Queue

def ofValue (v : Value) : Outcome Queue := do
  let id ← v.requireWord "id" "queue"
  let trafficClass ← v.requireWord "traffic-class" "queue"
  let wred ← WredMap.ofQueue v
  return ⟨id, trafficClass, (v.word? "weight").getD 1, v.flag "priority-local", wred⟩

/-- The queue number at a position of the class. -/
def qmap (q : Queue) (wrr : Option Nat) (precedence : Nat) : Nat :=
  Qmap.encode q.trafficClass (wrr.getD 0) precedence

def failures (q : Queue) (limit : Option QueueLimit) (path : String) : List CheckFailure :=
  (if 1 ≤ q.weight ∧ q.weight ≤ maxWeight then []
  else [⟨s!"Queue weight {q.weight} must be between 1 and {maxWeight}", path⟩]) ++
  q.wred.flatMap fun m => m.failures limit path

end Queue

/-- The queues of one class in the order in which they were placed, each with its position, and
the next free position. -/
structure ClassQueues where
  next : Nat
  placed : List (Queue × Nat)

namespace ClassQueues

def empty : ClassQueues := ⟨0, []⟩

/-- Where a queue goes. One for local priority traffic leaves position zero free. -/
def position (c : ClassQueues) (q : Queue) : Nat :=
  if q.priorityLocal && c.next == 0 then 1 else c.next

/-- Puts a queue at its position, which is kept as a byte. -/
def push (c : ClassQueues) (q : Queue) : ClassQueues :=
  ⟨c.position q + 1, c.placed ++ [(q, min (c.position q) (Text.wordMax 8))]⟩

/-- Puts a queue into its class, if there is one. -/
def place (cs : Vector ClassQueues classCount) (q : Queue) : Vector ClassQueues classCount :=
  if h : q.trafficClass < classCount then cs.set q.trafficClass (cs[q.trafficClass].push q) else cs

end ClassQueues

/-- The configured queues of a profile by their ids. -/
structure PipeQueues where
  queues : Table Nat Queue
deriving DecidableEq

namespace PipeQueues

def empty : PipeQueues := ⟨.empty⟩

def ofValues (vs : List Value) : Outcome PipeQueues := do
  return ⟨Table.ofNamed Queue.id (← vs.mapM Queue.ofValue)⟩

def get? (qs : PipeQueues) (id : Nat) : Option Queue := qs.queues.get? id

/-- The queues of each class with their positions, placed in ascending order of their ids. A queue
of a class that is not there has no place. -/
def byClass (qs : PipeQueues) : Vector ClassQueues classCount :=
  qs.queues.values.foldl ClassQueues.place (Vector.replicate classCount ClassQueues.empty)

def placed (qs : PipeQueues) (cls : Nat) : List (Queue × Nat) :=
  (qs.byClass[cls]?.map (·.placed)).getD []

def ofClass (qs : PipeQueues) (cls : Nat) : List Queue := (qs.placed cls).map (·.1)

/-- The position of a queue in its class, none when there is no such class. -/
def wrr? (qs : PipeQueues) (q : Queue) : Option Nat :=
  ((qs.placed q.trafficClass).find? fun x => x.1.id = q.id).map (·.2)

/-- The queue number of a pipe queue; an id that is not configured stands for itself. -/
def qmap (qs : PipeQueues) (id precedence : Nat) : Nat :=
  match qs.get? id with
  | some q => q.qmap (qs.wrr? q) precedence
  | none => Qmap.ofUnconfigured id precedence

/-- The rules that one queue breaks. -/
def queueFailures (q : Queue) (classes : TrafficClasses) (path : String) : List CheckFailure :=
  if pipeQueueCount ≤ q.id then
    [⟨s!"Queue id {q.id} out of range 0..{pipeQueueCount - 1}", path⟩]
  else match classes.get? q.trafficClass with
    | none =>
      [⟨s!"Queue {q.id} traffic-class {q.trafficClass} out of range 0..{classCount - 1}", path⟩]
    | some c => q.failures c.explicitLimit? path

/-- Whether a class has more queues than positions, or a queue at a position that is not there. -/
def overfull (qs : PipeQueues) (cls : Nat) : Bool :=
  wrrCount < (qs.ofClass cls).length || (qs.placed cls).any fun x => wrrCount ≤ x.2

def failures (qs : PipeQueues) (classes : TrafficClasses) (path : String) : List CheckFailure :=
  (qs.queues.values.flatMap fun q => queueFailures q classes s!"{path}/queue/{q.id}") ++
  (List.range classCount).flatMap fun cls =>
    if qs.overfull cls then
      [⟨s!"Too many queues assigned to traffic-class {cls}", s!"{path}/traffic-class/{cls}"⟩]
    else []

/-- The lines of one queue: its weight, and its limit when the class has a limit of
its own or the queue detects early. -/
def queueDirectives (qs : PipeQueues) (platform : LimitCapability) (profile : Nat)
    (classes : TrafficClasses) (q : Queue) : List PortDirective :=
  let number := q.qmap (qs.wrr? q) 0
  let cls := classes.get? q.trafficClass
  let limit := (cls.map (·.limit platform)).getD platform.defaultLimit
  .queue profile number q.weight q.priorityLocal ::
    if !q.wred.isEmpty || (cls.bind (·.explicitLimit?)).isSome then
      [.queueLimit profile number limit q.wred]
    else []

def directives (qs : PipeQueues) (platform : LimitCapability) (profile : Nat)
    (classes : TrafficClasses) : List PortDirective :=
  qs.queues.values.flatMap (qs.queueDirectives platform profile classes)

end PipeQueues
end QosControl
