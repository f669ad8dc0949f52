/-
UpfPolicy.Adapters.SimulatedDataplane — the scripted adapter
(`upf/ports/dataplane_adapter.hpp`, `src/adapters/simulated_dataplane.cpp`).

`key` flattens an update ID and a version to one text, and the two
`std::set<std::string>`s are finite sets of such texts. The cursor `next_`
stays at or below the length of the script, so it is a plain number here.
-/
import Mathlib.Data.Finset.Basic
import UpfPolicy.Application.Reconciliation

namespace UpfPolicy

structure SimulatedDataplane where
  outcomes : List AdapterResult
  next : Nat := 0
  applied : Finset String := ∅
  delayed : Finset String := ∅
  deriving DecidableEq

namespace SimulatedDataplane

def new (outcomes : List AdapterResult) : SimulatedDataplane := { outcomes }

def key (updateId : String) (version : UInt64) : String :=
  updateId ++ ":" ++ toString version.toNat

/-- `next_ < outcomes_.size() ? outcomes_[next_++] : AdapterResult(SUCCESS)`. -/
def takeOutcome (d : SimulatedDataplane) : AdapterResult × SimulatedDataplane :=
  if h : d.next < d.outcomes.length then
    (d.outcomes[d.next], { d with next := d.next + 1 })
  else ({}, d)

/-- What a result not seen before does to the two sets. -/
def record (d : SimulatedDataplane) (identity : String) (result : AdapterResult) :
    SimulatedDataplane :=
  { d with
    applied := if result.outcome = .success then insert identity d.applied else d.applied
    delayed := if result.outcome = .delayedSuccess then insert identity d.delayed else d.delayed }

def apply (d : SimulatedDataplane) (updateId : String) (version : UInt64) (_attempt : UInt32) :
    AdapterResult × SimulatedDataplane :=
  let identity := key updateId version
  if identity ∈ d.applied then ({}, d)
  else
    let (result, d) := d.takeOutcome
    (result, d.record identity result)

def completeDelayed (d : SimulatedDataplane) (updateId : String) (version : UInt64)
    (latestUpdateId : String) (latestVersion : UInt64) : Bool × SimulatedDataplane :=
  let identity := key updateId version
  if identity ∈ d.applied then (true, d)
  else if updateId ≠ latestUpdateId ∨ version ≠ latestVersion ∨ identity ∉ d.delayed then
    (false, d)
  else
    (true, { d with applied := insert identity d.applied, delayed := d.delayed.erase identity })

/-- The scripted adapter behind the port. Its `apply` calls no service. -/
def port : DataplaneAdapter SimulatedDataplane where
  apply _ d updateId version attempt :=
    let (result, d) := d.apply updateId version attempt
    { result, state := d }

end SimulatedDataplane

/-! ## Calls -/

inductive DataplaneCall where
  | apply (updateId : String) (version : UInt64) (attempt : UInt32)
  | completeDelayed (updateId : String) (version : UInt64) (latestUpdateId : String)
      (latestVersion : UInt64)

inductive DataplaneReply where
  | applied (result : AdapterResult)
  | completed (done : Bool)
  deriving DecidableEq

/-- One call on an adapter; every call returns. -/
def SimulatedDataplane.exec (d : SimulatedDataplane) :
    DataplaneCall → Option (DataplaneReply × SimulatedDataplane)
  | .apply updateId version attempt =>
    let (result, d) := d.apply updateId version attempt
    some (.applied result, d)
  | .completeDelayed updateId version latestUpdateId latestVersion =>
    let (done, d) := d.completeDelayed updateId version latestUpdateId latestVersion
    some (.completed done, d)

end UpfPolicy
