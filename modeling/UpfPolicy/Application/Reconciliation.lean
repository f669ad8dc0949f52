/-
UpfPolicy.Application.Reconciliation — `ReconciliationController`
(`upf/application/reconciliation.hpp`, `src/application/reconciliation.cpp`)
and the port it drives (`upf/ports/dataplane_adapter.hpp`).

An adapter is code the port leaves open. It has a state of its own, and
nothing in the port keeps it from calling the service while `apply` runs,
so `apply` answers with the calls it makes as well. `reconcile` captures
the intended snapshot once and asks the service for the latest update ID
again at every use.

The loop counts attempts in 32 bits and may wrap around, so it runs on
fuel: `none` is a loop that has not returned yet.
-/
import UpfPolicy.Application.RuleService

namespace UpfPolicy

/-! ## The port -/

structure AdapterResult where
  outcome : AdapterOutcome := .success
  dueTimeMicros : UInt64 := 0
  deriving DecidableEq, Repr

/-- A call an adapter may make on the service while `apply` runs. -/
inductive Reentry where
  | update (updateId : String) (candidate : RuleSet)
  | remove (updateId : String) (version : UInt64)
  | markApplied (updateId : String) (version : UInt64)

def Reentry.perform (s : RuleService) : Reentry → RuleService
  | .update updateId candidate => (s.update updateId candidate).2
  | .remove updateId version => (s.remove updateId version).2
  | .markApplied updateId version => s.markApplied updateId version

/-- What `apply` answers, and what else it did. -/
structure AdapterReply (δ : Type) where
  result : AdapterResult
  calls : List Reentry := []
  state : δ

/-- `DataplaneAdapter`, for adapters with states `δ`: `apply` sees the
service, its own state, the update ID, the version and the attempt. -/
structure DataplaneAdapter (δ : Type) where
  apply : RuleService → δ → String → UInt64 → UInt32 → AdapterReply δ

/-! ## The controller -/

structure ReconciliationStatus where
  converged : Bool := false
  attempts : UInt32 := 0
  delayed : Bool := false
  deriving DecidableEq, Repr

namespace ReconciliationController

variable {δ : Type}

/-- The loop of `reconcile`, from its test on. -/
def attemptLoop (adapter : DataplaneAdapter δ) (maximumAttempts : UInt32) (intended : RuleSet) :
    Nat → UInt32 → ReconciliationStatus → RuleService → δ →
      Option (ReconciliationStatus × RuleService × δ)
  | 0, _, _, _, _ => none
  | fuel + 1, attempt, status, service, state =>
    if attempt ≤ maximumAttempts then
      let status := { status with attempts := status.attempts + 1 }
      let reply := adapter.apply service state service.latestUpdateId intended.version attempt
      let service := reply.calls.foldl Reentry.perform service
      match reply.result.outcome with
      | .success =>
        some ({ status with converged := true },
          service.markApplied service.latestUpdateId intended.version, reply.state)
      | .delayedSuccess => some ({ status with delayed := true }, service, reply.state)
      | .permanentFailure => some (status, service, reply.state)
      | .transientFailure =>
        attemptLoop adapter maximumAttempts intended fuel (attempt + 1) status service reply.state
    else some (status, service, state)

def reconcile (adapter : DataplaneAdapter δ) (maximumAttempts : UInt32) (fuel : Nat)
    (service : RuleService) (state : δ) : Option (ReconciliationStatus × RuleService × δ) :=
  match service.intended with
  | none => some ({}, service, state)
  | some intended =>
    if maximumAttempts = 0 then some ({}, service, state)
    else attemptLoop adapter maximumAttempts intended fuel 1 {} service state

end ReconciliationController

end UpfPolicy
