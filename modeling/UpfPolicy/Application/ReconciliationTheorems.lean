/-
UpfPolicy.Application.ReconciliationTheorems — what a healthy adapter
achieves.

`markApplied` takes the latest update ID from the service itself, so it
records the version `reconcile` set out to apply whenever that is still the
intended one (`markApplied_latest`). Without an intended ruleset there is
nothing to apply: `reconcile` calls no adapter and leaves the service as it
is, divergent after a `remove`.
-/
import UpfPolicy.Application.Reconciliation
import UpfPolicy.Application.VersionTheorems

namespace UpfPolicy

open Support

/-- `apply` always answers SUCCESS. -/
def DataplaneAdapter.Healthy {δ : Type} (adapter : DataplaneAdapter δ) : Prop :=
  ∀ service state updateId version attempt,
    (adapter.apply service state updateId version attempt).result.outcome = .success

/-- The adapter makes no call on the service. -/
def DataplaneAdapter.Quiet {δ : Type} (adapter : DataplaneAdapter δ) : Prop :=
  ∀ service state updateId version attempt,
    (adapter.apply service state updateId version attempt).calls = []

namespace RuleService

/-- `markApplied` leaves the intended ruleset alone. -/
theorem markApplied_intended (s : RuleService) (updateId : String) (version : UInt64) :
    (s.markApplied updateId version).intended = s.intended := by
  unfold markApplied
  split <;> rfl

/-- Acknowledging the intended version under the latest update ID converges. -/
theorem markApplied_latest {s : RuleService} {rules : RuleSet} (h : s.intended = some rules) :
    (s.markApplied s.latestUpdateId rules.version).convergence = .converged := by
  simp [markApplied, convergence, h]

end RuleService

namespace ReconciliationController

variable {δ : Type}

/-- The service when an `apply` has returned. -/
def afterApply (adapter : DataplaneAdapter δ) (service : RuleService) (state : δ) (version : UInt64)
    (attempt : UInt32) : RuleService :=
  (adapter.apply service state service.latestUpdateId version attempt).calls.foldl Reentry.perform
    service

theorem afterApply_quiet {adapter : DataplaneAdapter δ} (hquiet : adapter.Quiet)
    (service : RuleService) (state : δ) (version : UInt64) (attempt : UInt32) :
    afterApply adapter service state version attempt = service := by
  rw [afterApply, hquiet]
  rfl

/-- The first attempt on a healthy adapter is the last. -/
theorem attemptLoop_healthy {adapter : DataplaneAdapter δ} (hhealthy : adapter.Healthy)
    {maximumAttempts attempt : UInt32} (hattempt : attempt ≤ maximumAttempts) (intended : RuleSet)
    (fuel : Nat) (status : ReconciliationStatus) (service : RuleService) (state : δ) :
    attemptLoop adapter maximumAttempts intended (fuel + 1) attempt status service state =
      some ({ status with attempts := status.attempts + 1, converged := true },
        (afterApply adapter service state intended.version attempt).markApplied
          (afterApply adapter service state intended.version attempt).latestUpdateId
          intended.version,
        (adapter.apply service state service.latestUpdateId intended.version attempt).state) := by
  rw [attemptLoop, if_pos hattempt]
  simp only [hhealthy service state service.latestUpdateId intended.version attempt]
  rfl

/-- **Reconciliation against a healthy adapter** returns with the first
attempt. Without an intended ruleset there is no attempt, and the service
and the adapter stay as they are. With one, the service is converged when
`reconcile` returns, if it still intends the version `reconcile` set out to
apply, as it does when the adapter makes no call on the service. -/
theorem reconcile_converges (adapter : DataplaneAdapter δ) (hhealthy : adapter.Healthy)
    {maximumAttempts : UInt32} (hattempts : 1 ≤ maximumAttempts) (service : RuleService)
    (state : δ) :
    ∃ status after state',
      (∀ fuel, reconcile adapter maximumAttempts (fuel + 1) service state
        = some (status, after, state')) ∧
      (service.intended = none → status = {} ∧ after = service ∧ state' = state) ∧
      ∀ intended, service.intended = some intended →
        (after.intended.map (·.version) = some intended.version →
          after.convergence = .converged) ∧
        (adapter.Quiet → after.convergence = .converged) := by
  cases hintended : service.intended with
  | none =>
    refine ⟨{}, service, state, fun fuel => ?_, fun _ => ⟨rfl, rfl, rfl⟩, nofun⟩
    rw [reconcile, hintended]
  | some rules =>
    have hpositive : maximumAttempts ≠ 0 := by
      intro hzero
      rw [hzero] at hattempts
      exact absurd hattempts (by decide)
    have hreturns : ∀ fuel, reconcile adapter maximumAttempts (fuel + 1) service state =
        attemptLoop adapter maximumAttempts rules (fuel + 1) 1 {} service state := by
      intro fuel
      rw [reconcile, hintended]
      exact if_neg hpositive
    have hconverged : ∀ after : RuleService, after.intended.map (·.version) = some rules.version →
        (after.markApplied after.latestUpdateId rules.version).convergence = .converged := by
      intro after hversion
      obtain ⟨now, hnow, heq⟩ := Option.map_eq_some_iff.mp hversion
      rw [← heq]
      exact RuleService.markApplied_latest hnow
    simp only [hreturns, attemptLoop_healthy hhealthy hattempts]
    refine ⟨_, _, _, fun _ => rfl, nofun, fun intended hsome => ?_⟩
    cases hsome
    refine ⟨fun hversion => ?_, fun hquiet => ?_⟩
    · rw [RuleService.markApplied_intended] at hversion
      exact hconverged _ hversion
    · rw [afterApply_quiet hquiet]
      exact hconverged service (by rw [hintended]; rfl)

/-! ## A removed ruleset -/

/-- An adapter that applies everything at once. -/
def promptAdapter : DataplaneAdapter Unit where
  apply _ _ _ _ _ := { result := {}, state := () }

theorem reconcile_converges_prompt :
    ∃ status after state',
      (∀ fuel, reconcile promptAdapter 1 (fuel + 1) ((RuleService.new {}).update "u1" basicRules).2 ()
        = some (status, after, state')) ∧ after.convergence = .converged := by
  obtain ⟨status, after, state', hreturns, -, hconverges⟩ :=
    reconcile_converges promptAdapter (fun _ _ _ _ _ => rfl) (show (1 : UInt32) ≤ 1 by decide)
      ((RuleService.new {}).update "u1" basicRules).2 ()
  exact ⟨status, after, state', hreturns, (hconverges basicRules rfl).2 fun _ _ _ _ _ => rfl⟩

/-- A ruleset applied and then removed. -/
def removedRun : Option (List RuleService.ServiceEvent × RuleService) :=
  run RuleService.exec (RuleService.new {})
    [.update "u1" basicRules, .markApplied "u1" 3, .remove "u2" 4]

theorem removedRun_isSome : removedRun.isSome = true := by decide +kernel

/-- After a `remove`, `reconcile` finds nothing to apply and the service
stays divergent. -/
theorem removed_stays_divergent :
    ¬ ∀ (limits : CapacityLimits) (service : RuleService) (adapter : DataplaneAdapter Unit)
        (maximumAttempts : UInt32) (fuel : Nat) (status : ReconciliationStatus)
        (after : RuleService),
      Reachable RuleService.exec (RuleService.new limits) service → adapter.Healthy →
      1 ≤ maximumAttempts →
      reconcile adapter maximumAttempts fuel service () = some (status, after, ()) →
        after.convergence ≠ .divergent := by
  intro h
  have hnone : (removedRun.get removedRun_isSome).2.intended.isNone = true := by decide +kernel
  have hreturns : reconcile promptAdapter 1 1 (removedRun.get removedRun_isSome).2 ()
      = some ({}, (removedRun.get removedRun_isSome).2, ()) := by
    rw [reconcile, Option.isNone_iff_eq_none.mp hnone]
  refine h {} _ promptAdapter 1 1 {} _ (reachable_of_isSome removedRun_isSome)
    (fun _ _ _ _ _ => rfl) (by decide) hreturns ?_
  decide +kernel

end ReconciliationController

end UpfPolicy
