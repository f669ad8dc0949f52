/-
UpfPolicy.Application.RuleService — `RuleService`
(`upf/application/rule_service.hpp`, `src/application/rule_service.cpp`).

`intended_` and `active_` point to immutable snapshots, so they are
optional rulesets here. The loops of `update` search the old generations
with `find`, unlike those of `PacketPipeline::install`, and copy a kept
state with the inserting `operator[]`.

`runtime()` hands its caller a reference to the maps. A write through it is
a call of its own (`writeTokens`, `writeUsage`), possible under the IDs the
service holds.
-/
import UpfPolicy.Domain.Engine

namespace UpfPolicy

open Support

structure RuleService where
  limits : CapacityLimits
  intended : Option RuleSet := none
  active : Option RuleSet := none
  appliedVersion : UInt64 := 0
  latestUpdateId : String := ""
  runtime : RuntimeState := {}

namespace RuleService

/-- A new service. -/
def new (limits : CapacityLimits) : RuleService := { limits }

/-! ## Updates -/

/-- One turn of either loop of `update`, on the maps of `runtime_` and of
`migrated` for the kind of rule the loop is about. -/
def migrateRule {σ : Type} [Inhabited σ] (maps : Store UInt32 UInt32 σ × Store UInt32 UInt32 σ)
    (rule : Item UInt32 UInt32 σ) : Store UInt32 UInt32 σ × Store UInt32 UInt32 σ :=
  let (runtime, migrated) := maps
  let (runtime, state) :=
    if runtime.generations[rule.key]? == some rule.generation then
      let (state, entries) := subscript runtime.entries rule.key
      ({ runtime with entries }, state)
    else (runtime, rule.fresh)
  (runtime,
    { entries := migrated.entries.insert rule.key state
      generations := migrated.generations.insert rule.key rule.generation })

/-- The runtime state `update` leaves behind. -/
def migrate (runtime : RuntimeState) (rules : RuleSet) : RuntimeState :=
  .ofStores ((rules.qers.map Qer.item).foldl migrateRule (runtime.qerStore, {})).2
    ((rules.urrs.map Urr.item).foldl migrateRule (runtime.urrStore, {})).2

def update (s : RuleService) (updateId : String) (candidate : RuleSet) :
    Except String Unit × RuleService :=
  if updateId.isEmpty then (.error "update ID required", s)
  else if s.active.any (fun active => decide (candidate.version ≤ active.version)) then
    (.error "ruleset version must increase", s)
  else
    match validateRuleSet candidate s.limits with
    | .error e => (.error e, s)
    | .ok () =>
      (.ok (),
        { s with
          runtime := migrate s.runtime candidate
          intended := some candidate
          active := some candidate
          latestUpdateId := updateId })

/-- `runtime_` and `appliedVersion_` stay as they are. -/
def remove (s : RuleService) (updateId : String) (version : UInt64) :
    Except String Unit × RuleService :=
  match s.active with
  | none => (.error "invalid delete", s)
  | some active =>
    if updateId.isEmpty || decide (version ≤ active.version) then (.error "invalid delete", s)
    else (.ok (), { s with intended := none, active := none, latestUpdateId := updateId })

/-! ## Convergence -/

def convergence (s : RuleService) : ConvergenceStatus :=
  if s.intended.isNone && s.appliedVersion == 0 then .empty
  else if s.intended.any (fun intended => intended.version == s.appliedVersion) then .converged
  else .divergent

def markApplied (s : RuleService) (updateId : String) (version : UInt64) : RuleService :=
  if s.intended.any (fun intended => updateId == s.latestUpdateId && version == intended.version)
  then { s with appliedVersion := version } else s

end RuleService

/-! ## Calls -/

inductive ServiceCall where
  | update (updateId : String) (candidate : RuleSet)
  | remove (updateId : String) (version : UInt64)
  | markApplied (updateId : String) (version : UInt64)
  /-- `runtime().qers[id] = state`. -/
  | writeTokens (id : UInt32) (state : TokenBucketState)
  /-- `runtime().urrs[id] = state`. -/
  | writeUsage (id : UInt32) (state : UsageCounterState)

inductive ServiceReply where
  | returned (result : Except String Unit)
  | done

/-- One call on a service; `none` is a write under an ID it does not hold. -/
def RuleService.exec (s : RuleService) : ServiceCall → Option (ServiceReply × RuleService)
  | .update updateId candidate =>
    let (result, s) := s.update updateId candidate
    some (.returned result, s)
  | .remove updateId version =>
    let (result, s) := s.remove updateId version
    some (.returned result, s)
  | .markApplied updateId version => some (.done, s.markApplied updateId version)
  | .writeTokens id state =>
    if s.runtime.qers.contains id then
      some (.done, { s with runtime := { s.runtime with qers := s.runtime.qers.insert id state } })
    else none
  | .writeUsage id state =>
    if s.runtime.urrs.contains id then
      some (.done, { s with runtime := { s.runtime with urrs := s.runtime.urrs.insert id state } })
    else none

end UpfPolicy
