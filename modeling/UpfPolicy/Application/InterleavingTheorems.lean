/-
UpfPolicy.Application.InterleavingTheorems — `reconcile` while the service
changes under it.

An adapter may call the service back from `apply`. `reconcileLogged` is
`reconcile` with a log of its `apply` calls, each with the service before
it and the calls made during it. `perform_accepted` says what such calls
do to the two fields `reconcile` reads: the last accepted one decides.

`reconcile` holds on to the version it captured and asks for the latest
update ID again, so the pair it passes, and the acknowledgement, go wrong
exactly when an accepted call came in between (`reconcile_truthful_iff`);
`reconcile_misled` is a run on which both do.
-/
import UpfPolicy.Application.ReconciliationTheorems

namespace UpfPolicy

open Support

/-! ## Calls from the adapter -/

/-- The update ID a call carries. -/
def Reentry.updateId : Reentry → String
  | .update updateId _ => updateId
  | .remove updateId _ => updateId
  | .markApplied updateId _ => updateId

/-- The service accepts the call as an update or a removal. -/
def Reentry.accepted (s : RuleService) : Reentry → Bool
  | .update updateId candidate => (s.update updateId candidate).1.isOk
  | .remove updateId version => (s.remove updateId version).1.isOk
  | .markApplied _ _ => false

/-- What an accepted call leaves as the intended ruleset. -/
def Reentry.intends : Reentry → Option RuleSet
  | .update _ candidate => some candidate
  | .remove _ _ => none
  | .markApplied _ _ => none

/-- The accepted calls among those made one after the other. -/
def acceptedCalls : RuleService → List Reentry → List Reentry
  | _, [] => []
  | s, call :: rest =>
    (if call.accepted s then [call] else []) ++ acceptedCalls (call.perform s) rest

/-- The two fields `reconcile` reads: those of the last accepted call, or
those of the service before. -/
structure LastAccepted (s : RuleService) (accepted : List Reentry) (s' : RuleService) : Prop where
  latestUpdateId : s'.latestUpdateId
    = ((accepted.getLast?).map Reentry.updateId).getD s.latestUpdateId
  intended : s'.intended = ((accepted.getLast?).map Reentry.intends).getD s.intended

theorem LastAccepted.refl (s : RuleService) : LastAccepted s [] s := ⟨rfl, rfl⟩

theorem LastAccepted.trans {s t u : RuleService} {first second : List Reentry}
    (h : LastAccepted s first t) (h' : LastAccepted t second u) :
    LastAccepted s (first ++ second) u := by
  rcases List.eq_nil_or_concat second with rfl | ⟨init, last, rfl⟩
  · rw [List.append_nil]
    exact ⟨h'.latestUpdateId.trans h.latestUpdateId, h'.intended.trans h.intended⟩
  · have hlast : (first ++ init.concat last).getLast? = (init.concat last).getLast? := by
      simp [List.concat_eq_append, ← List.append_assoc]
    have hsome : (init.concat last).getLast? = some last := by simp
    constructor
    · rw [hlast, h'.latestUpdateId, hsome]
      rfl
    · rw [hlast, h'.intended, hsome]
      rfl

theorem update_accepted (s : RuleService) (updateId : String) (candidate : RuleSet) :
    LastAccepted s (if (s.update updateId candidate).1.isOk
      then [.update updateId candidate] else []) (s.update updateId candidate).2 := by
  unfold RuleService.update
  by_cases hid : updateId.isEmpty = true
  · rw [if_pos hid]
    exact .refl s
  · rw [if_neg hid]
    by_cases hold : s.active.any (fun active => decide (candidate.version ≤ active.version)) = true
    · rw [if_pos hold]
      exact .refl s
    · rw [if_neg hold]
      cases validateRuleSet candidate s.limits with
      | error e => exact .refl s
      | ok => exact ⟨rfl, rfl⟩

theorem remove_accepted (s : RuleService) (updateId : String) (version : UInt64) :
    LastAccepted s (if (s.remove updateId version).1.isOk
      then [.remove updateId version] else []) (s.remove updateId version).2 := by
  generalize hanswer : s.remove updateId version = answer
  unfold RuleService.remove at hanswer
  cases hactive : s.active with
  | none =>
    rw [hactive] at hanswer
    subst hanswer
    exact .refl s
  | some active =>
    rw [hactive] at hanswer
    dsimp only at hanswer
    by_cases hbad : (updateId.isEmpty || decide (version ≤ active.version)) = true
    · rw [if_pos hbad] at hanswer
      subst hanswer
      exact .refl s
    · rw [if_neg hbad] at hanswer
      subst hanswer
      exact ⟨rfl, rfl⟩

theorem markApplied_accepted (s : RuleService) (updateId : String) (version : UInt64) :
    LastAccepted s [] (s.markApplied updateId version) := by
  refine ⟨?_, RuleService.markApplied_intended s updateId version⟩
  unfold RuleService.markApplied
  split <;> rfl

theorem perform_step (s : RuleService) (call : Reentry) :
    LastAccepted s (if call.accepted s then [call] else []) (call.perform s) := by
  cases call with
  | update updateId candidate => exact update_accepted s updateId candidate
  | remove updateId version => exact remove_accepted s updateId version
  | markApplied updateId version => exact markApplied_accepted s updateId version

/-- **The last accepted call decides.** -/
theorem perform_accepted (s : RuleService) (calls : List Reentry) :
    LastAccepted s (acceptedCalls s calls) (calls.foldl Reentry.perform s) := by
  induction calls generalizing s with
  | nil => exact .refl s
  | cons call rest ih => exact (perform_step s call).trans (ih (call.perform s))

/-! ## The log of a reconciliation -/

/-- One `apply` of a reconciliation: the pair it was passed, the service
before it, the calls made during it and what it answered. -/
structure ApplyCall where
  updateId : String
  version : UInt64
  before : RuleService
  calls : List Reentry
  outcome : AdapterOutcome

/-- The service when the `apply` returns. -/
def ApplyCall.after (c : ApplyCall) : RuleService := c.calls.foldl Reentry.perform c.before

namespace ReconciliationController

variable {δ : Type}

/-- `attemptLoop` with its log; the log is there also when the fuel runs
out. -/
def attemptLoopLogged (adapter : DataplaneAdapter δ) (maximumAttempts : UInt32)
    (intended : RuleSet) : Nat → UInt32 → ReconciliationStatus → RuleService → δ →
      List ApplyCall × Option (ReconciliationStatus × RuleService × δ)
  | 0, _, _, _, _ => ([], none)
  | fuel + 1, attempt, status, service, state =>
    if attempt ≤ maximumAttempts then
      let status := { status with attempts := status.attempts + 1 }
      let reply := adapter.apply service state service.latestUpdateId intended.version attempt
      let call : ApplyCall :=
        ⟨service.latestUpdateId, intended.version, service, reply.calls, reply.result.outcome⟩
      match reply.result.outcome with
      | .success =>
        ([call], some ({ status with converged := true },
          call.after.markApplied call.after.latestUpdateId intended.version, reply.state))
      | .delayedSuccess => ([call], some ({ status with delayed := true }, call.after, reply.state))
      | .permanentFailure => ([call], some (status, call.after, reply.state))
      | .transientFailure =>
        let (log, result) := attemptLoopLogged adapter maximumAttempts intended fuel (attempt + 1)
          status call.after reply.state
        (call :: log, result)
    else ([], some (status, service, state))

def reconcileLogged (adapter : DataplaneAdapter δ) (maximumAttempts : UInt32) (fuel : Nat)
    (service : RuleService) (state : δ) :
    List ApplyCall × Option (ReconciliationStatus × RuleService × δ) :=
  match service.intended with
  | none => ([], some ({}, service, state))
  | some intended =>
    if maximumAttempts = 0 then ([], some ({}, service, state))
    else attemptLoopLogged adapter maximumAttempts intended fuel 1 {} service state

theorem attemptLoopLogged_result (adapter : DataplaneAdapter δ) (maximumAttempts : UInt32)
    (intended : RuleSet) (fuel : Nat) (attempt : UInt32) (status : ReconciliationStatus)
    (service : RuleService) (state : δ) :
    (attemptLoopLogged adapter maximumAttempts intended fuel attempt status service state).2
      = attemptLoop adapter maximumAttempts intended fuel attempt status service state := by
  induction fuel generalizing attempt status service state with
  | zero => rfl
  | succ fuel ih =>
    rw [attemptLoopLogged, attemptLoop]
    split
    · dsimp only
      cases hout : (adapter.apply service state service.latestUpdateId intended.version
        attempt).result.outcome with
      | success => rfl
      | delayedSuccess => rfl
      | permanentFailure => rfl
      | transientFailure => exact ih _ _ _ _
    · rfl

/-- The log is of `reconcile` itself. -/
theorem reconcileLogged_result (adapter : DataplaneAdapter δ) (maximumAttempts : UInt32)
    (fuel : Nat) (service : RuleService) (state : δ) :
    (reconcileLogged adapter maximumAttempts fuel service state).2
      = reconcile adapter maximumAttempts fuel service state := by
  unfold reconcileLogged reconcile
  cases service.intended with
  | none => rfl
  | some intended =>
    dsimp only
    split
    · rfl
    · exact attemptLoopLogged_result _ _ _ _ _ _ _ _

end ReconciliationController

/-! ## What the log says -/

/-- The accepted calls made during a log, in order. -/
def acceptedIn (log : List ApplyCall) : List Reentry :=
  log.flatMap fun c => acceptedCalls c.before c.calls

/-- Every `apply` starts where the one before it ended and is passed the
captured version under the latest update ID of that moment. -/
inductive Chained (version : UInt64) : RuleService → List ApplyCall → Prop where
  | nil (s : RuleService) : Chained version s []
  | cons {c : ApplyCall} {rest : List ApplyCall} (hversion : c.version = version)
      (hid : c.updateId = c.before.latestUpdateId) (hrest : Chained version c.after rest) :
      Chained version c.before (c :: rest)

theorem Chained.attempt {version : UInt64} {s : RuleService} {calls : List Reentry}
    {outcome : AdapterOutcome} {rest : List ApplyCall}
    (h : Chained version (calls.foldl Reentry.perform s) rest) :
    Chained version s (⟨s.latestUpdateId, version, s, calls, outcome⟩ :: rest) :=
  .cons (c := ⟨s.latestUpdateId, version, s, calls, outcome⟩) rfl rfl h

/-- What the calls before an `apply` left. -/
theorem Chained.split {version : UInt64} {s : RuleService} {log : List ApplyCall}
    (h : Chained version s log) : ∀ {pre post : List ApplyCall} {c : ApplyCall},
      log = pre ++ c :: post → LastAccepted s (acceptedIn pre) c.before ∧ c.version = version ∧
        c.updateId = c.before.latestUpdateId := by
  induction h with
  | nil s =>
    intro pre post c hcut
    simp at hcut
  | @cons d rest hversion hid hrest ih =>
    intro pre post c hcut
    cases pre with
    | nil =>
      cases hcut
      exact ⟨.refl _, hversion, hid⟩
    | cons d' pre' =>
      cases hcut
      obtain ⟨hlast, hrest'⟩ := ih rfl
      refine ⟨?_, hrest'⟩
      rw [acceptedIn, List.flatMap_cons]
      exact (perform_accepted d.before d.calls).trans hlast

/-- What all the calls of a log left, seen when the last `apply` returns. -/
theorem Chained.last {version : UInt64} {s : RuleService} {log : List ApplyCall}
    (h : Chained version s log) {c : ApplyCall} (hlast : log.getLast? = some c) :
    LastAccepted s (acceptedIn log) c.after := by
  obtain ⟨pre, hcut⟩ := List.getLast?_eq_some_iff.mp hlast
  have hbefore := (h.split hcut).1
  have hsplit : acceptedIn log = acceptedIn pre ++ acceptedCalls c.before c.calls := by
    rw [hcut, acceptedIn, List.flatMap_append, List.flatMap_singleton, ← acceptedIn]
  rw [hsplit]
  exact hbefore.trans (perform_accepted c.before c.calls)

namespace ReconciliationController

variable {δ : Type}

theorem attemptLoopLogged_chained (adapter : DataplaneAdapter δ) (maximumAttempts : UInt32)
    (intended : RuleSet) (fuel : Nat) (attempt : UInt32) (status : ReconciliationStatus)
    (service : RuleService) (state : δ) :
    Chained intended.version service
      (attemptLoopLogged adapter maximumAttempts intended fuel attempt status service state).1 := by
  induction fuel generalizing attempt status service state with
  | zero => exact .nil service
  | succ fuel ih =>
    rw [attemptLoopLogged]
    split
    · dsimp only
      cases (adapter.apply service state service.latestUpdateId intended.version
        attempt).result.outcome with
      | success => exact .attempt (.nil _)
      | delayedSuccess => exact .attempt (.nil _)
      | permanentFailure => exact .attempt (.nil _)
      | transientFailure => exact .attempt (ih _ _ _ _)
    · exact .nil service

/-- `reconcile` reports convergence exactly when its last `apply` answered
SUCCESS, and then acknowledges the captured version. -/
theorem attemptLoopLogged_converged (adapter : DataplaneAdapter δ) (maximumAttempts : UInt32)
    (intended : RuleSet) (fuel : Nat) (attempt : UInt32) {status : ReconciliationStatus}
    (hstatus : status.converged = false) (service : RuleService) (state : δ)
    (after : RuleService) :
    (∃ status' state', (attemptLoopLogged adapter maximumAttempts intended fuel attempt status
        service state).2 = some (status', after, state') ∧ status'.converged = true) ↔
      ∃ c, (attemptLoopLogged adapter maximumAttempts intended fuel attempt status service
          state).1.getLast? = some c ∧ c.outcome = .success ∧
        after = c.after.markApplied c.after.latestUpdateId intended.version := by
  induction fuel generalizing attempt status service state with
  | zero => simp [attemptLoopLogged]
  | succ fuel ih =>
    rw [attemptLoopLogged]
    split
    · dsimp only
      cases hout : (adapter.apply service state service.latestUpdateId intended.version
        attempt).result.outcome with
      | success =>
        constructor
        · rintro ⟨status', state', h, -⟩
          cases h
          exact ⟨_, rfl, rfl, rfl⟩
        · rintro ⟨c, hc, -, rfl⟩
          cases hc
          exact ⟨_, _, rfl, rfl⟩
      | delayedSuccess => simp [hstatus]
      | permanentFailure => simp [hstatus]
      | transientFailure =>
        dsimp only
        rw [ih (attempt + 1) (by exact hstatus), List.getLast?_cons]
        generalize (attemptLoopLogged adapter maximumAttempts intended fuel (attempt + 1) _ _
          _).1.getLast? = last
        cases last with
        | none => simp
        | some c => simp
    · simp [hstatus]

/-! ## When `reconcile` is truthful -/

/-- The update was accepted before the reconciliation or during it. -/
def AcceptedUpdate (es : List RuleService.ServiceEvent) (log : List ApplyCall) (updateId : String)
    (rules : RuleSet) : Prop :=
  (∃ e ∈ es, e.input = .update updateId rules ∧ e.output = .returned (.ok ())) ∨
    Reentry.update updateId rules ∈ acceptedIn log

/-- Every `apply` is passed the pair of one and the same accepted update. -/
def FromOneUpdate (es : List RuleService.ServiceEvent) (log : List ApplyCall) : Prop :=
  log ≠ [] → ∃ updateId rules, AcceptedUpdate es log updateId rules ∧
    ∀ c ∈ log, c.updateId = updateId ∧ c.version = rules.version

/-- The calls that come in between do no harm: before a retry the last
accepted one carries the update ID the reconciliation started with, and
when an `apply` answers SUCCESS the last accepted one is an update to the
captured version or to the version that is applied already. -/
structure Undisturbed (updateId : String) (version : UInt64) (log : List ApplyCall) : Prop where
  retries : ∀ pre c post, log = pre ++ c :: post →
    ∀ call, (acceptedIn pre).getLast? = some call → call.updateId = updateId
  success : ∀ c, log.getLast? = some c → c.outcome = .success →
    ∀ call, (acceptedIn log).getLast? = some call →
      ∃ rules, call.intends = some rules ∧
        (rules.version = version ∨ rules.version = c.after.appliedVersion)

/-- The intended ruleset of a reachable service came with the latest update
ID in one accepted update. -/
theorem intended_accepted {limits : CapacityLimits} {es : List RuleService.ServiceEvent}
    {s : RuleService} (hrun : Recorded RuleService.exec (RuleService.new limits) es s) :
    ∀ rules, s.intended = some rules → ∃ e ∈ es, e.input = .update s.latestUpdateId rules ∧
      e.output = .returned (.ok ()) := by
  induction hrun with
  | nil =>
    intro rules hrules
    cases hrules
  | @snoc es s t call reply hrec hexec ih =>
    have hkeep : t.intended = s.intended → t.latestUpdateId = s.latestUpdateId →
        ∀ rules, t.intended = some rules → ∃ e ∈ es ++ [⟨s, call, reply, t⟩],
          e.input = .update t.latestUpdateId rules ∧ e.output = .returned (.ok ()) := by
      intro hintended hid rules hrules
      rw [hintended] at hrules
      obtain ⟨e, he, hsame⟩ := ih rules hrules
      exact ⟨e, List.mem_append_left _ he, hid ▸ hsame⟩
    cases (RuleService.holding_of_recorded hrec).exec_outcome hexec with
    | updated =>
      intro rules hrules
      cases hrules
      exact ⟨_, List.mem_append_right _ (List.mem_singleton_self _), rfl, rfl⟩
    | removed =>
      intro rules hrules
      cases hrules
    | updateRejected => exact hkeep rfl rfl
    | removeRejected => exact hkeep rfl rfl
    | applied => exact hkeep rfl rfl
    | stale => exact hkeep rfl rfl
    | wroteTokens => exact hkeep rfl rfl
    | wroteUsage => exact hkeep rfl rfl

/-- The pairs are of one update exactly when no retry finds another update
ID. -/
theorem fromOneUpdate_iff {es : List RuleService.ServiceEvent} {service : RuleService}
    {intended : RuleSet} {log : List ApplyCall}
    (haccepted : ∃ e ∈ es, e.input = .update service.latestUpdateId intended ∧
      e.output = .returned (.ok ()))
    (hlog : Chained intended.version service log) :
    FromOneUpdate es log ↔ ∀ pre c post, log = pre ++ c :: post →
      ∀ call, (acceptedIn pre).getLast? = some call → call.updateId = service.latestUpdateId := by
  constructor
  · intro hone pre c post hcut call hcall
    obtain ⟨updateId, rules, -, hall⟩ := hone (by rw [hcut]; simp)
    -- the first `apply` is passed the update ID of the start
    have hfirst : updateId = service.latestUpdateId := by
      cases hlog with
      | nil => simp at hcut
      | @cons d rest _ hid _ => rw [← (hall d List.mem_cons_self).1, hid]
    obtain ⟨hlast, -, hid⟩ := hlog.split hcut
    have hc : c.updateId = updateId := (hall c (by rw [hcut]; simp)).1
    have hcallId : c.before.latestUpdateId = call.updateId := by
      rw [hlast.latestUpdateId, hcall]
      rfl
    rw [← hcallId, ← hid, hc, hfirst]
  · intro hretries _
    refine ⟨service.latestUpdateId, intended, Or.inl haccepted, ?_⟩
    intro c hc
    obtain ⟨pre, post, hcut⟩ := List.append_of_mem hc
    obtain ⟨hlast, hversion, hid⟩ := hlog.split hcut
    refine ⟨?_, hversion⟩
    rw [hid, hlast.latestUpdateId]
    cases hcall : (acceptedIn pre).getLast? with
    | none => rfl
    | some call => exact hretries pre c post hcut call hcall

/-- Acknowledging a version under the latest update ID converges exactly when
the service intends that version, or one that is applied already. -/
theorem markApplied_converged_iff (s : RuleService) (version : UInt64) :
    (s.markApplied s.latestUpdateId version).convergence = .converged ↔
      ∃ rules, s.intended = some rules ∧
        (rules.version = version ∨ rules.version = s.appliedVersion) := by
  rw [RuleService.convergence_eq_converged, RuleService.markApplied_intended]
  refine exists_congr fun rules => and_congr_right fun hrules => ?_
  unfold RuleService.markApplied
  by_cases hsame : version = rules.version
  · simp [hrules, hsame]
  · have hsame' : ¬ rules.version = version := fun h => hsame h.symm
    simp [hrules, hsame, hsame']

/-- Reported convergence is convergence exactly when the last accepted call
before the acknowledgement left a version that fits. -/
theorem converged_iff {service : RuleService} {intended : RuleSet} {log : List ApplyCall}
    (hintended : service.intended = some intended)
    (hlog : Chained intended.version service log) :
    (∀ c, log.getLast? = some c → c.outcome = .success →
      (c.after.markApplied c.after.latestUpdateId intended.version).convergence = .converged) ↔
    ∀ c, log.getLast? = some c → c.outcome = .success →
      ∀ call, (acceptedIn log).getLast? = some call →
        ∃ rules, call.intends = some rules ∧
          (rules.version = intended.version ∨ rules.version = c.after.appliedVersion) := by
  refine forall_congr' fun c => forall_congr' fun hlast => forall_congr' fun _ => ?_
  rw [markApplied_converged_iff, (hlog.last hlast).intended]
  cases (acceptedIn log).getLast? with
  | none =>
    simp only [Option.map_none, Option.getD_none, hintended]
    exact iff_of_true ⟨intended, rfl, Or.inl rfl⟩ nofun
  | some call =>
    simp only [Option.map_some, Option.getD_some, Option.some.injEq, forall_eq']

/-- A reconciliation reports convergence truthfully exactly when its
acknowledgements converge. -/
theorem reported_iff {version : UInt64} {log : List ApplyCall}
    {result : Option (ReconciliationStatus × RuleService × δ)}
    (hconverged : ∀ after, (∃ status state, result = some (status, after, state) ∧
        status.converged = true) ↔
      ∃ c, log.getLast? = some c ∧ c.outcome = .success ∧
        after = c.after.markApplied c.after.latestUpdateId version) :
    (∀ status after state, result = some (status, after, state) → status.converged = true →
        after.convergence = .converged) ↔
      ∀ c, log.getLast? = some c → c.outcome = .success →
        (c.after.markApplied c.after.latestUpdateId version).convergence = .converged := by
  constructor
  · intro h c hlast hsuccess
    obtain ⟨status, state, hresult, htrue⟩ := (hconverged _).mpr ⟨c, hlast, hsuccess, rfl⟩
    exact h status _ state hresult htrue
  · intro h status after state hresult htrue
    obtain ⟨c, hlast, hsuccess, rfl⟩ := (hconverged after).mp ⟨status, state, hresult, htrue⟩
    exact h c hlast hsuccess

/-- Nothing intended, or no attempt allowed: nothing is done. -/
theorem reconcileLogged_idle (adapter : DataplaneAdapter δ) {maximumAttempts : UInt32} (fuel : Nat)
    {service : RuleService} (state : δ)
    (h : service.intended = none ∨ maximumAttempts = 0) :
    reconcileLogged adapter maximumAttempts fuel service state
      = ([], some ({}, service, state)) := by
  unfold reconcileLogged
  cases hintended : service.intended with
  | none => rfl
  | some intended => exact if_pos (h.resolve_left (by rw [hintended]; exact Option.some_ne_none _))

/-- **When `reconcile` is truthful while the service changes.** -/
theorem reconcile_truthful_iff {limits : CapacityLimits} {es : List RuleService.ServiceEvent}
    {service : RuleService}
    (hrun : Recorded RuleService.exec (RuleService.new limits) es service)
    (adapter : DataplaneAdapter δ) (maximumAttempts : UInt32) (fuel : Nat) (state : δ) :
    (reconcileLogged adapter maximumAttempts fuel service state).2
        = reconcile adapter maximumAttempts fuel service state ∧
    ((FromOneUpdate es (reconcileLogged adapter maximumAttempts fuel service state).1 ∧
        ∀ status after state', reconcile adapter maximumAttempts fuel service state
            = some (status, after, state') →
          status.converged = true → after.convergence = .converged) ↔
      ∀ intended, service.intended = some intended →
        Undisturbed service.latestUpdateId intended.version
          (reconcileLogged adapter maximumAttempts fuel service state).1) := by
  refine ⟨reconcileLogged_result _ _ _ _ _, ?_⟩
  rw [← reconcileLogged_result]
  by_cases hidle : service.intended = none ∨ maximumAttempts = 0
  · rw [reconcileLogged_idle adapter fuel state hidle]
    refine iff_of_true ⟨fun h => absurd rfl h, ?_⟩ ?_
    · intro status after state' h hconverged
      cases h
      cases hconverged
    · intro _ _
      exact ⟨fun pre c post hcut => by simp at hcut, nofun⟩
  · obtain ⟨hsome, hattempts⟩ := not_or.mp hidle
    obtain ⟨intended, hintended⟩ := Option.ne_none_iff_exists'.mp hsome
    have hloop : reconcileLogged adapter maximumAttempts fuel service state
        = attemptLoopLogged adapter maximumAttempts intended fuel 1 {} service state := by
      rw [reconcileLogged, hintended]
      exact if_neg hattempts
    rw [hloop]
    have hlog := attemptLoopLogged_chained adapter maximumAttempts intended fuel 1 {} service state
    have hstart : ({} : ReconciliationStatus).converged = false := rfl
    have hreported := reported_iff (attemptLoopLogged_converged adapter maximumAttempts intended fuel
      1 hstart service state)
    rw [fromOneUpdate_iff (intended_accepted hrun intended hintended) hlog, hreported,
      converged_iff hintended hlog]
    constructor
    · rintro ⟨hretries, hsuccess⟩ rules hrules
      cases hintended.symm.trans hrules
      exact ⟨hretries, hsuccess⟩
    · intro h
      exact ⟨(h intended hintended).retries, (h intended hintended).success⟩

/-! ## An update between two attempts -/

/-- The service after one accepted update. -/
def updatedRun : Option (List RuleService.ServiceEvent × RuleService) :=
  run RuleService.exec (RuleService.new {}) [.update "u1" basicRules]

theorem updatedRun_isSome : updatedRun.isSome = true := by decide +kernel

theorem updatedRun_recorded :
    Recorded RuleService.exec (RuleService.new {}) (updatedRun.get updatedRun_isSome).1
      (updatedRun.get updatedRun_isSome).2 :=
  recorded_of_run (Option.some_get updatedRun_isSome).symm

/-- An adapter that fails once, while the ruleset is removed and accepted
again, and then succeeds. -/
def reinstatingAdapter : DataplaneAdapter Unit where
  apply _ _ _ _ attempt :=
    if attempt = 1 then
      { result := { outcome := .transientFailure }
        calls := [.remove "u1" 4, .update "u1" basicRules]
        state := () }
    else { result := {}, state := () }

/-- The attempts of a reconciliation over that adapter. -/
def reinstatedRun : List ApplyCall × Option (ReconciliationStatus × RuleService × Unit) :=
  reconcileLogged reinstatingAdapter 3 3 (updatedRun.get updatedRun_isSome).2 ()

/-- Both calls are accepted, and the reconciliation stays truthful. -/
theorem reconcile_truthful_iff_reinstated :
    reinstatedRun.1.map (fun c => (c.updateId, c.version)) = [("u1", 3), ("u1", 3)] ∧
      (acceptedIn reinstatedRun.1).map (·.updateId) = ["u1", "u1"] ∧
      FromOneUpdate (updatedRun.get updatedRun_isSome).1 reinstatedRun.1 ∧
      ∀ status after state',
        reconcile reinstatingAdapter 3 3 (updatedRun.get updatedRun_isSome).2 ()
            = some (status, after, state') →
          status.converged = true → after.convergence = .converged := by
  have hids : (acceptedIn reinstatedRun.1).map (·.updateId) = ["u1", "u1"] := by decide +kernel
  have hlatest : (updatedRun.get updatedRun_isSome).2.latestUpdateId = "u1" := by decide +kernel
  refine ⟨by decide +kernel, hids,
    (reconcile_truthful_iff updatedRun_recorded reinstatingAdapter 3 3 ()).2.mpr fun intended h => ?_⟩
  refine ⟨fun pre c post hcut call hcall => ?_, fun c _ _ call hcall => ?_⟩
  · -- every accepted call carries the update ID of the start
    have hmem : call ∈ acceptedIn reinstatedRun.1 := by
      rw [reinstatedRun, hcut, acceptedIn, List.flatMap_append]
      exact List.mem_append_left _ (List.mem_of_getLast? hcall)
    have hid : call.updateId ∈ ["u1", "u1"] := hids ▸ List.mem_map_of_mem hmem
    rw [hlatest]
    simpa using hid
  · have hlast : (acceptedIn reinstatedRun.1).getLast?.map (fun call => call.intends.map (·.version))
        = some (some 3) := by decide +kernel
    have hversion : (updatedRun.get updatedRun_isSome).2.intended.map (·.version) = some 3 := by
      decide +kernel
    rw [reinstatedRun, hcall, Option.map_some] at hlast
    rw [h, Option.map_some] at hversion
    obtain ⟨rules, hrules, hthree⟩ := Option.map_eq_some_iff.mp (Option.some.inj hlast)
    exact ⟨rules, hrules, .inl (hthree.trans (Option.some.inj hversion).symm)⟩

/-- An adapter that fails once, while the next ruleset is accepted, and then
succeeds. -/
def interruptedAdapter : DataplaneAdapter Unit where
  apply _ _ _ _ attempt :=
    if attempt = 1 then
      { result := { outcome := .transientFailure }
        calls := [.update "u2" RuleService.nextRules]
        state := () }
    else { result := {}, state := () }

/-- The attempts of a reconciliation over that adapter. -/
def interruptedRun : List ApplyCall × Option (ReconciliationStatus × RuleService × Unit) :=
  reconcileLogged interruptedAdapter 3 3 (updatedRun.get updatedRun_isSome).2 ()

theorem interruptedRun_isSome : interruptedRun.2.isSome = true := by decide +kernel

/-- The second attempt passes the new update ID with the old version, and
`reconcile` reports convergence of a divergent service. -/
theorem reconcile_misled :
    ¬ FromOneUpdate (updatedRun.get updatedRun_isSome).1 interruptedRun.1 ∧
    ¬ ∀ status after state',
        reconcile interruptedAdapter 3 3 (updatedRun.get updatedRun_isSome).2 ()
            = some (status, after, state') →
          status.converged = true → after.convergence = .converged := by
  have hids : interruptedRun.1.map (·.updateId) = ["u1", "u2"] := by decide +kernel
  constructor
  · intro hone
    have hne : interruptedRun.1 ≠ [] := by
      intro hnil
      rw [hnil] at hids
      cases hids
    obtain ⟨updateId, rules, -, hall⟩ := hone hne
    have hmem : ∀ id ∈ interruptedRun.1.map (·.updateId), id = updateId := by
      intro id hid
      obtain ⟨c, hc, rfl⟩ := List.mem_map.mp hid
      exact (hall c hc).1
    rw [hids] at hmem
    have h1 := hmem "u1" (by simp)
    have h2 := hmem "u2" (by simp)
    exact absurd (h1.trans h2.symm) (by decide)
  · intro h
    have hreturns := (reconcileLogged_result interruptedAdapter 3 3
      (updatedRun.get updatedRun_isSome).2 ()).symm.trans
        (Option.some_get interruptedRun_isSome).symm
    have hconverged := h _ _ _ hreturns (by decide +kernel)
    exact absurd hconverged (by decide +kernel)

end ReconciliationController

end UpfPolicy
