/-
UpfPolicy.Application.RetryTheorems — the attempts of a reconciliation.

As long as an adapter answers TRANSIENT_FAILURE the loop goes on, so what
it does next depends on the number of calls made so far alone: `atCall`
follows the service and the adapter through retried calls, `outcomeAt` is
what the adapter then answers, and `loopFrom` is the loop at that point.
`loopFrom_retries` runs the loop through any number of retries; it ends at
the first other outcome (`reconcileLogged_stops`) or, below the largest
budget, when the budget is used up (`reconcileLogged_exhausts`).

With the largest budget the test of the loop is always true and its
counters wrap around: an adapter that does not stop answering
TRANSIENT_FAILURE is called for ever (`reconcile_bounded_iff`).
-/
import UpfPolicy.Application.InterleavingTheorems

namespace UpfPolicy

namespace ReconciliationController

variable {δ : Type}

section Calls

variable (adapter : DataplaneAdapter δ) (version : UInt64) (service : RuleService) (state : δ)

/-! ## Retried calls -/

/-- The service and the adapter before the call with index `i`, when every
call before it was retried. -/
def atCall : Nat → RuleService × δ
  | 0 => (service, state)
  | i + 1 =>
    let now := atCall i
    let reply := adapter.apply now.1 now.2 now.1.latestUpdateId version (.ofNat (i + 1))
    (reply.calls.foldl Reentry.perform now.1, reply.state)

/-- What the adapter answers to it. -/
def replyAt (i : Nat) : AdapterReply δ :=
  let now := atCall adapter version service state i
  adapter.apply now.1 now.2 now.1.latestUpdateId version (.ofNat (i + 1))

def outcomeAt (i : Nat) : AdapterOutcome :=
  (replyAt adapter version service state i).result.outcome

/-- Its entry in the log. -/
def callAt (i : Nat) : ApplyCall :=
  let now := atCall adapter version service state i
  let reply := replyAt adapter version service state i
  ⟨now.1.latestUpdateId, version, now.1, reply.calls, reply.result.outcome⟩

theorem atCall_succ (i : Nat) :
    atCall adapter version service state (i + 1)
      = ((callAt adapter version service state i).after,
        (replyAt adapter version service state i).state) := rfl

/-- What `reconcile` returns when it stops at a call. -/
def stopAt (i : Nat) : ReconciliationStatus × RuleService × δ :=
  let after := (callAt adapter version service state i).after
  let reply := replyAt adapter version service state i
  match reply.result.outcome with
  | .success =>
    ({ converged := true, attempts := .ofNat (i + 1) },
      after.markApplied after.latestUpdateId version, reply.state)
  | .delayedSuccess => ({ attempts := .ofNat (i + 1), delayed := true }, after, reply.state)
  | _ => ({ attempts := .ofNat (i + 1) }, after, reply.state)

end Calls

section Loop

variable (adapter : DataplaneAdapter δ) (maximumAttempts : UInt32) (intended : RuleSet)
  (service : RuleService) (state : δ)

/-- The loop after `i` retried calls. -/
def loopFrom (fuel i : Nat) : List ApplyCall × Option (ReconciliationStatus × RuleService × δ) :=
  let now := atCall adapter intended.version service state i
  attemptLoopLogged adapter maximumAttempts intended fuel (.ofNat (i + 1)) { attempts := .ofNat i }
    now.1 now.2

/-! ## One turn -/

theorem ofNat_add_one (n : Nat) : UInt32.ofNat n + 1 = UInt32.ofNat (n + 1) :=
  (UInt32.ofNat_add n 1).symm

theorem loopFrom_retry {fuel i : Nat} (hattempt : UInt32.ofNat (i + 1) ≤ maximumAttempts)
    (hretry : outcomeAt adapter intended.version service state i = .transientFailure) :
    loopFrom adapter maximumAttempts intended service state (fuel + 1) i
      = (callAt adapter intended.version service state i
          :: (loopFrom adapter maximumAttempts intended service state fuel (i + 1)).1,
        (loopFrom adapter maximumAttempts intended service state fuel (i + 1)).2) := by
  rw [loopFrom, attemptLoopLogged, if_pos hattempt]
  unfold outcomeAt replyAt at hretry
  simp only [loopFrom, atCall_succ, callAt, replyAt, hretry, ofNat_add_one]

theorem loopFrom_stop {fuel i : Nat} (hattempt : UInt32.ofNat (i + 1) ≤ maximumAttempts)
    (hstop : outcomeAt adapter intended.version service state i ≠ .transientFailure) :
    loopFrom adapter maximumAttempts intended service state (fuel + 1) i
      = ([callAt adapter intended.version service state i],
        some (stopAt adapter intended.version service state i)) := by
  rw [loopFrom, attemptLoopLogged, if_pos hattempt]
  unfold outcomeAt replyAt at hstop
  dsimp only
  simp only [stopAt, callAt, replyAt, ofNat_add_one]
  generalize adapter.apply (atCall adapter intended.version service state i).1
    (atCall adapter intended.version service state i).2
    (atCall adapter intended.version service state i).1.latestUpdateId intended.version
    (.ofNat (i + 1)) = reply at hstop ⊢
  obtain ⟨⟨outcome, dueTimeMicros⟩, calls, next⟩ := reply
  cases outcome with
  | success => rfl
  | delayedSuccess => rfl
  | permanentFailure => rfl
  | transientFailure => exact absurd rfl hstop

theorem loopFrom_end {fuel i : Nat} (hattempt : ¬ UInt32.ofNat (i + 1) ≤ maximumAttempts) :
    loopFrom adapter maximumAttempts intended service state (fuel + 1) i
      = ([], some ({ attempts := .ofNat i }, atCall adapter intended.version service state i)) := by
  rw [loopFrom, attemptLoopLogged, if_neg hattempt]

/-! ## Runs of the loop -/

theorem toNat_attempt {n : Nat} (h : n < 2 ^ 32) : (UInt32.ofNat n).toNat = n :=
  UInt32.toNat_ofNat_of_lt' h

/-- An attempt within the budget passes the test of the loop. -/
theorem attempt_le {i : Nat} (h : i < maximumAttempts.toNat) :
    UInt32.ofNat (i + 1) ≤ maximumAttempts := by
  have hlt := maximumAttempts.toNat_lt
  rw [UInt32.le_iff_toNat_le, toNat_attempt (by omega)]
  exact h

/-- The first attempt behind the budget does not, where it can be counted. -/
theorem attempt_not_le (h : maximumAttempts.toNat < 2 ^ 32 - 1) :
    ¬ UInt32.ofNat (maximumAttempts.toNat + 1) ≤ maximumAttempts := by
  rw [UInt32.le_iff_toNat_le, toNat_attempt (by omega)]
  omega

/-- **Retries**: `n` of them lead to the loop `n` calls later. -/
theorem loopFrom_retries {i n : Nat} (fuel : Nat) (hroom : i + n ≤ maximumAttempts.toNat)
    (hretries : ∀ j, i ≤ j → j < i + n →
      outcomeAt adapter intended.version service state j = .transientFailure) :
    loopFrom adapter maximumAttempts intended service state (n + fuel) i
      = ((List.range' i n).map (callAt adapter intended.version service state)
          ++ (loopFrom adapter maximumAttempts intended service state fuel (i + n)).1,
        (loopFrom adapter maximumAttempts intended service state fuel (i + n)).2) := by
  induction n generalizing i with
  | zero => simp
  | succ n ih =>
    have hfirst := hretries i (Nat.le_refl i) (by omega)
    have hrest := ih (i := i + 1) (by omega) fun j hle hlt => hretries j (by omega) (by omega)
    rw [show n + 1 + fuel = n + fuel + 1 by omega, loopFrom_retry adapter maximumAttempts intended
      service state (attempt_le maximumAttempts (by omega)) hfirst, hrest,
      show i + 1 + n = i + (n + 1) by omega, List.range'_succ]
    rfl

/-- `reconcile` is the loop from the first call on. -/
theorem reconcileLogged_eq (hintended : service.intended = some intended)
    (hpositive : maximumAttempts ≠ 0) (fuel : Nat) :
    reconcileLogged adapter maximumAttempts fuel service state
      = loopFrom adapter maximumAttempts intended service state fuel 0 := by
  rw [reconcileLogged, hintended]
  exact if_neg hpositive

/-- **The first outcome that is not retried** ends the loop, within the
budget. -/
theorem reconcileLogged_stops {k : Nat} (hintended : service.intended = some intended)
    (hroom : k < maximumAttempts.toNat)
    (hretries : ∀ j < k, outcomeAt adapter intended.version service state j = .transientFailure)
    (hstop : outcomeAt adapter intended.version service state k ≠ .transientFailure)
    {fuel : Nat} (hfuel : k < fuel) :
    reconcileLogged adapter maximumAttempts fuel service state
      = ((List.range (k + 1)).map (callAt adapter intended.version service state),
        some (stopAt adapter intended.version service state k)) := by
  have hpositive : maximumAttempts ≠ 0 := by
    rintro rfl
    exact Nat.not_lt_zero k hroom
  obtain ⟨rest, rfl⟩ : ∃ rest, fuel = k + (rest + 1) := ⟨fuel - (k + 1), by omega⟩
  rw [reconcileLogged_eq adapter maximumAttempts intended service state hintended hpositive,
    loopFrom_retries adapter maximumAttempts intended service state (rest + 1) (by omega)
      fun j _ hj => hretries j (by omega), Nat.zero_add,
    loopFrom_stop adapter maximumAttempts intended service state
      (attempt_le maximumAttempts hroom) hstop, List.range_succ, List.map_append,
    List.range_eq_range']
  rfl

/-- **A budget used up** by retries ends the loop, where the attempt behind
it can be counted. -/
theorem reconcileLogged_exhausts (hintended : service.intended = some intended)
    (hbudget : maximumAttempts.toNat < 2 ^ 32 - 1)
    (hretries : ∀ j < maximumAttempts.toNat,
      outcomeAt adapter intended.version service state j = .transientFailure)
    {fuel : Nat} (hfuel : maximumAttempts.toNat < fuel) :
    reconcileLogged adapter maximumAttempts fuel service state
      = ((List.range maximumAttempts.toNat).map (callAt adapter intended.version service state),
        some ({ attempts := maximumAttempts },
          atCall adapter intended.version service state maximumAttempts.toNat)) := by
  by_cases hzero : maximumAttempts = 0
  · subst hzero
    rw [reconcileLogged_idle adapter fuel state (.inr rfl)]
    rfl
  · obtain ⟨rest, rfl⟩ : ∃ rest, fuel = maximumAttempts.toNat + (rest + 1) :=
      ⟨fuel - (maximumAttempts.toNat + 1), by omega⟩
    rw [reconcileLogged_eq adapter maximumAttempts intended service state hintended hzero,
      loopFrom_retries adapter maximumAttempts intended service state (rest + 1) (by omega)
        fun j _ hj => hretries j (by omega), Nat.zero_add,
      loopFrom_end adapter maximumAttempts intended service state
        (attempt_not_le maximumAttempts hbudget), List.append_nil, List.range_eq_range',
      UInt32.ofNat_toNat]

/-- With the largest budget the loop returns only from an outcome that is not
retried. -/
theorem loopFrom_unbounded (hmax : maximumAttempts.toNat = 2 ^ 32 - 1) {fuel i : Nat}
    {result : ReconciliationStatus × RuleService × δ}
    (h : (loopFrom adapter maximumAttempts intended service state fuel i).2 = some result) :
    ∃ k, outcomeAt adapter intended.version service state (i + k) ≠ .transientFailure ∧
      (loopFrom adapter maximumAttempts intended service state fuel i).1.length = k + 1 := by
  induction fuel generalizing i with
  | zero => cases h
  | succ fuel ih =>
    -- no attempt is above the largest number
    have hattempt : UInt32.ofNat (i + 1) ≤ maximumAttempts := by
      rw [UInt32.le_iff_toNat_le, hmax]
      exact Nat.le_sub_one_of_lt (UInt32.toNat_lt _)
    by_cases hretry : outcomeAt adapter intended.version service state i = .transientFailure
    · rw [loopFrom_retry adapter maximumAttempts intended service state hattempt hretry] at h ⊢
      obtain ⟨k, hstop, hlength⟩ := ih h
      refine ⟨k + 1, ?_, congrArg (· + 1) hlength⟩
      rwa [show i + (k + 1) = i + 1 + k by omega]
    · refine ⟨0, hretry, ?_⟩
      rw [loopFrom_stop adapter maximumAttempts intended service state hattempt hretry]
      rfl

/-! ## The budget -/

/-- `reconcile` returns after at most `maximumAttempts` calls of `apply`, and
reports their number. -/
def Bounded : Prop :=
  ∃ fuel log status after state',
    reconcileLogged adapter maximumAttempts fuel service state = (log, some (status, after, state')) ∧
    log.length ≤ maximumAttempts.toNat ∧ status.attempts.toNat = log.length

theorem stopAt_attempts (version : UInt64) (i : Nat) :
    (stopAt adapter version service state i).1.attempts = .ofNat (i + 1) := by
  unfold stopAt
  dsimp only
  split
  · rfl
  · rfl
  · rfl

/-- An outcome within the budget that is not retried bounds the loop. -/
theorem bounded_of_stop (hintended : service.intended = some intended)
    (h : ∃ i, i < maximumAttempts.toNat ∧
      outcomeAt adapter intended.version service state i ≠ .transientFailure) :
    Bounded adapter maximumAttempts service state := by
  classical
  obtain ⟨k, ⟨hroom, hstop⟩, hleast⟩ : ∃ k, (k < maximumAttempts.toNat ∧
      outcomeAt adapter intended.version service state k ≠ .transientFailure) ∧
      ∀ j < k, ¬ (j < maximumAttempts.toNat ∧
        outcomeAt adapter intended.version service state j ≠ .transientFailure) :=
    ⟨Nat.find h, Nat.find_spec h, fun _ => Nat.find_min h⟩
  have hlt := maximumAttempts.toNat_lt
  have hretries : ∀ j < k,
      outcomeAt adapter intended.version service state j = .transientFailure := by
    intro j hj
    have hnot := hleast j hj
    rw [not_and, not_not] at hnot
    exact hnot (by omega)
  refine ⟨k + 1, _, (stopAt adapter intended.version service state k).1, _, _,
    reconcileLogged_stops adapter maximumAttempts intended service state hintended hroom hretries
      hstop (Nat.lt_succ_self k), ?_, ?_⟩
  · rw [List.length_map, List.length_range]
    exact hroom
  · rw [stopAt_attempts, List.length_map, List.length_range]
    exact toNat_attempt (by omega)

end Loop

/-- **Retry is bounded** below the largest budget, whatever the adapter
answers, and with it exactly when the adapter stops answering
TRANSIENT_FAILURE in time. -/
theorem reconcile_bounded_iff (adapter : DataplaneAdapter δ) (maximumAttempts : UInt32)
    (service : RuleService) (state : δ) :
    (∀ fuel, (reconcileLogged adapter maximumAttempts fuel service state).2
      = reconcile adapter maximumAttempts fuel service state) ∧
    (Bounded adapter maximumAttempts service state ↔
      maximumAttempts ≠ 4294967295 ∨ ∀ intended, service.intended = some intended →
        ∃ i < 2 ^ 32 - 1, outcomeAt adapter intended.version service state i ≠ .transientFailure) := by
  refine ⟨fun fuel => reconcileLogged_result adapter maximumAttempts fuel service state, ?_⟩
  have hlt := maximumAttempts.toNat_lt
  have htop : maximumAttempts = 4294967295 ↔ maximumAttempts.toNat = 2 ^ 32 - 1 :=
    UInt32.toNat_inj.symm
  constructor
  · rintro ⟨fuel, log, status, after, state', hlog, hlength, -⟩
    refine or_iff_not_imp_left.mpr fun hmax intended hintended => ?_
    rw [not_not] at hmax
    have hpositive : maximumAttempts ≠ 0 := by rw [hmax]; decide
    rw [reconcileLogged_eq adapter maximumAttempts intended service state hintended hpositive] at hlog
    have hvalue := htop.mp hmax
    obtain ⟨k, hstop, hcalls⟩ := loopFrom_unbounded adapter maximumAttempts intended service state
      hvalue (congrArg Prod.snd hlog)
    rw [Nat.zero_add] at hstop
    rw [hlog] at hcalls
    dsimp only at hcalls
    exact ⟨k, by omega, hstop⟩
  · intro h
    cases hintended : service.intended with
    | none =>
      exact ⟨0, _, _, _, _, reconcileLogged_idle adapter 0 state (.inl hintended), Nat.zero_le _, rfl⟩
    | some intended =>
      by_cases hstops : ∃ i, i < maximumAttempts.toNat ∧
          outcomeAt adapter intended.version service state i ≠ .transientFailure
      · exact bounded_of_stop adapter maximumAttempts intended service state hintended hstops
      · simp only [not_exists, not_and, not_not] at hstops
        have hbudget : maximumAttempts.toNat < 2 ^ 32 - 1 := by
          rcases h with hmax | hstop
          · have hne := mt htop.mpr hmax
            omega
          · obtain ⟨i, hi, hstop⟩ := hstop intended hintended
            by_contra hbig
            exact hstop (hstops i (by omega))
        refine ⟨_, _, _, _, _, reconcileLogged_exhausts adapter maximumAttempts intended service
          state hintended hbudget hstops (Nat.lt_succ_self _), ?_, ?_⟩
        · rw [List.length_map, List.length_range]
        · rw [List.length_map, List.length_range]

/-- An adapter that answers TRANSIENT_FAILURE for ever. -/
def stubbornAdapter : DataplaneAdapter Unit where
  apply _ _ _ _ _ := { result := { outcome := .transientFailure }, state := () }

/-- With the largest budget it is called for ever. -/
theorem reconcile_unbounded :
    ¬ ∀ (adapter : DataplaneAdapter Unit) (maximumAttempts : UInt32) (service : RuleService),
      Bounded adapter maximumAttempts service () := by
  intro h
  obtain ⟨fuel, log, status, after, state', hlog, -, -⟩ :=
    h stubbornAdapter 4294967295 ((RuleService.new {}).update "u1" basicRules).2
  rw [reconcileLogged_eq stubbornAdapter 4294967295 basicRules _ () rfl (by decide)] at hlog
  obtain ⟨k, hstop, -⟩ := loopFrom_unbounded stubbornAdapter 4294967295 basicRules _ () rfl
    (congrArg Prod.snd hlog)
  exact hstop rfl

end ReconciliationController

end UpfPolicy
