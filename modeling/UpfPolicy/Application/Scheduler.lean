/-
UpfPolicy.Application.Scheduler — `Scheduler`
(`upf/application/scheduler.hpp`, `src/application/scheduler.cpp`).

The three queues are lists, front first. The source writes each operation
out for its queue; here the three share one definition with the kind of
work as a parameter, and each keeps its own name.
-/
import UpfPolicy.Domain.Types

namespace UpfPolicy

inductive WorkKind where
  | control
  | packet
  | reconciliation
  deriving DecidableEq, Repr

structure ScheduledItem where
  kind : WorkKind
  value : String
  deriving DecidableEq, Repr

structure Scheduler where
  limits : CapacityLimits
  control : List String := []
  packet : List String := []
  reconciliation : List String := []
  accepting : Bool := true

/-- The configured capacity of a queue. -/
def CapacityLimits.queueCapacity (limits : CapacityLimits) : WorkKind → UInt64
  | .control => limits.controlQueue
  | .packet => limits.packetQueue
  | .reconciliation => limits.reconciliationQueue

namespace Scheduler

/-- A new scheduler. -/
def new (limits : CapacityLimits) : Scheduler := { limits }

def queue (s : Scheduler) : WorkKind → List String
  | .control => s.control
  | .packet => s.packet
  | .reconciliation => s.reconciliation

def setQueue (s : Scheduler) (kind : WorkKind) (queue : List String) : Scheduler :=
  match kind with
  | .control => { s with control := queue }
  | .packet => { s with packet := queue }
  | .reconciliation => { s with reconciliation := queue }

/-! ## Admission -/

def enqueue (queue : List String) (capacity : UInt64) (value : String) : Bool × List String :=
  if queue.length ≥ capacity.toNat then (false, queue) else (true, queue ++ [value])

/-- `accepting_ && enqueue(...)`: nothing is tried once admission stopped. -/
def offer (s : Scheduler) (kind : WorkKind) (value : String) : Bool × Scheduler :=
  if s.accepting then
    let (admitted, queue) := enqueue (s.queue kind) (s.limits.queueCapacity kind) value
    (admitted, s.setQueue kind queue)
  else (false, s)

def enqueueControl (s : Scheduler) (value : String) : Bool × Scheduler := s.offer .control value

def enqueuePacket (s : Scheduler) (value : String) : Bool × Scheduler := s.offer .packet value

def enqueueReconciliation (s : Scheduler) (value : String) : Bool × Scheduler :=
  s.offer .reconciliation value

def stopAdmission (s : Scheduler) : Scheduler := { s with accepting := false }

/-! ## Release -/

/-- One of the three tests of `takeCycle`: the front of a queue, if any. -/
def takeFront (s : Scheduler) (kind : WorkKind) : List ScheduledItem × Scheduler :=
  match s.queue kind with
  | [] => ([], s)
  | value :: rest => ([⟨kind, value⟩], s.setQueue kind rest)

def takeCycle (s : Scheduler) : List ScheduledItem × Scheduler :=
  let (control, s) := s.takeFront .control
  let (packet, s) := s.takeFront .packet
  let (reconciliation, s) := s.takeFront .reconciliation
  (control ++ packet ++ reconciliation, s)

/-- `control_.size() + packet_.size() + reconciliation_.size()`. -/
def pending (s : Scheduler) : UInt64 :=
  s.control.length.toUInt64 + s.packet.length.toUInt64 + s.reconciliation.length.toUInt64

/-- One of the three loops of `classifyRemainder`: move the front of the
queue to the result until the queue is empty. -/
def drain (kind : WorkKind) : List String → List ScheduledItem → List ScheduledItem × List String
  | [], result => (result, [])
  | value :: rest, result => drain kind rest (result ++ [⟨kind, value⟩])

def classifyRemainder (s : Scheduler) : List ScheduledItem × Scheduler :=
  let (result, control) := drain .control s.control []
  let (result, packet) := drain .packet s.packet result
  let (result, reconciliation) := drain .reconciliation s.reconciliation result
  (result, { s with control, packet, reconciliation })

end Scheduler

/-! ## Calls -/

inductive SchedulerCall where
  | enqueueControl (value : String)
  | enqueuePacket (value : String)
  | enqueueReconciliation (value : String)
  | takeCycle
  | stopAdmission
  | classifyRemainder

inductive SchedulerReply where
  | admitted (ok : Bool)
  | items (items : List ScheduledItem)
  | done

/-- One call on a scheduler; every call returns. -/
def Scheduler.exec (s : Scheduler) : SchedulerCall → Option (SchedulerReply × Scheduler)
  | .enqueueControl value =>
    let (ok, s) := s.enqueueControl value
    some (.admitted ok, s)
  | .enqueuePacket value =>
    let (ok, s) := s.enqueuePacket value
    some (.admitted ok, s)
  | .enqueueReconciliation value =>
    let (ok, s) := s.enqueueReconciliation value
    some (.admitted ok, s)
  | .takeCycle =>
    let (items, s) := s.takeCycle
    some (.items items, s)
  | .stopAdmission => some (.done, s.stopAdmission)
  | .classifyRemainder =>
    let (items, s) := s.classifyRemainder
    some (.items items, s)

end UpfPolicy
