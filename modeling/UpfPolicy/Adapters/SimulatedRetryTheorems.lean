/-
UpfPolicy.Adapters.SimulatedRetryTheorems — retries against the scripted
adapter.

While the script says TRANSIENT_FAILURE the adapter records nothing and its
cursor moves by one, and the adapter never calls the service, so the state
before any retried call is known (`atCall_port`). The loop then ends as
`reconcileLogged_stops` and `reconcileLogged_exhausts` say, and
`reconcile_scripted` reads the report off the first outcome that is not
TRANSIENT_FAILURE.
-/
import Mathlib.Order.Bounds.Basic
import UpfPolicy.Application.RetryTheorems
import UpfPolicy.Adapters.SimulatedDataplaneTheorems

namespace UpfPolicy

open ReconciliationController

/-- Acknowledging the intended version writes it, and nothing else. -/
theorem RuleService.markApplied_intended_version {s : RuleService} {rules : RuleSet}
    (h : s.intended = some rules) :
    s.markApplied s.latestUpdateId rules.version = { s with appliedVersion := rules.version } := by
  simp [RuleService.markApplied, h]

namespace SimulatedDataplane

/-- The part of the script not consumed yet. -/
def unconsumed (d : SimulatedDataplane) : List AdapterResult := d.outcomes.drop d.next

/-- The outcomes `apply` has for a pair from here on, counted from 1: SUCCESS
for ever if the pair is applied, else the rest of the script, then SUCCESS
for ever. -/
def nthOutcome (d : SimulatedDataplane) (q : UpdatePair) (i : Nat) : AdapterOutcome :=
  if d.Applied q then .success else (scripted d.unconsumed (i - 1)).outcome

/-- The next `n` outcomes for a pair ask for another attempt. -/
def Retries (d : SimulatedDataplane) (q : UpdatePair) (n : Nat) : Prop :=
  ∀ j < n, d.nthOutcome q (j + 1) = .transientFailure

theorem Retries.mono {d : SimulatedDataplane} {q : UpdatePair} {m n : Nat} (h : d.Retries q n)
    (hle : m ≤ n) : d.Retries q m :=
  fun j hj => h j (Nat.lt_of_lt_of_le hj hle)

/-! ## One attempt -/

theorem scripted_unconsumed (d : SimulatedDataplane) (i : Nat) :
    scripted d.unconsumed i = scripted d.outcomes (d.next + i) := by
  simp only [scripted, unconsumed, List.getD_eq_getElem?_getD, List.getElem?_drop]

/-- An outcome other than SUCCESS stands in the script. -/
theorem lt_length_of_scripted {outcomes : List AdapterResult} {i : Nat}
    (h : (scripted outcomes i).outcome ≠ .success) : i < outcomes.length := by
  by_contra hbehind
  rw [scripted, List.getD_eq_default _ _ (Nat.not_lt.mp hbehind)] at h
  exact h rfl

/-- The cursor after `n` outcomes for a pair. -/
def cursorAfter (d : SimulatedDataplane) (q : UpdatePair) (n : Nat) : Nat :=
  if d.Applied q then d.next else d.next + min n d.unconsumed.length

theorem apply_applied {d : SimulatedDataplane} {q : UpdatePair} (h : d.Applied q)
    (attempt : UInt32) : d.apply q.1 q.2 attempt = ({}, d) := if_pos h

theorem apply_new {d : SimulatedDataplane} {q : UpdatePair} (h : ¬ d.Applied q)
    (attempt : UInt32) : d.apply q.1 q.2 attempt
      = (scripted d.outcomes d.next,
        { d with next := min (d.next + 1) (max d.next d.outcomes.length) }.record (key q.1 q.2)
          (scripted d.outcomes d.next)) := by
  rw [apply, takeOutcome_spec]
  exact if_neg h

/-- Retried calls read the script, which goes on behind them. -/
theorem retries_unconsumed {d : SimulatedDataplane} {q : UpdatePair} {i : Nat}
    (hnew : ¬ d.Applied q) (hretries : d.Retries q i) : i ≤ d.unconsumed.length := by
  cases i with
  | zero => exact Nat.zero_le _
  | succ i =>
    have hlast := hretries i (Nat.lt_succ_self i)
    rw [nthOutcome, if_neg hnew, Nat.add_sub_cancel] at hlast
    exact lt_length_of_scripted (by rw [hlast]; decide)

/-- An applied pair is never retried. -/
theorem retries_eq_zero {d : SimulatedDataplane} {q : UpdatePair} {i : Nat} (happlied : d.Applied q)
    (hretries : d.Retries q i) : i = 0 := by
  by_contra hpositive
  have hretry := hretries 0 (Nat.pos_of_ne_zero hpositive)
  rw [nthOutcome, if_pos happlied] at hretry
  cases hretry

theorem cursorAfter_retries {d : SimulatedDataplane} {q : UpdatePair} {i : Nat}
    (hretries : d.Retries q i) : d.cursorAfter q i = d.next + i := by
  by_cases happlied : d.Applied q
  · rw [cursorAfter, if_pos happlied, retries_eq_zero happlied hretries, Nat.add_zero]
  · rw [cursorAfter, if_neg happlied, Nat.min_eq_left (retries_unconsumed happlied hretries)]

/-- What `apply` answers and does when the retried calls before it have moved
the cursor by `i`. -/
structure NthReply (d : SimulatedDataplane) (q : UpdatePair) (i : Nat)
    (reply : AdapterResult × SimulatedDataplane) : Prop where
  outcome : reply.1.outcome = d.nthOutcome q (i + 1)
  script : reply.2.outcomes = d.outcomes
  cursor : reply.2.next = d.cursorAfter q (i + 1)
  /-- A retried call leaves the sets as they are. -/
  retried : reply.1.outcome = .transientFailure → reply.2 = { d with next := d.next + (i + 1) }

theorem apply_nth (d : SimulatedDataplane) (q : UpdatePair) {i : Nat} (attempt : UInt32)
    (hretries : d.Retries q i) :
    NthReply d q i (({ d with next := d.next + i } : SimulatedDataplane).apply q.1 q.2 attempt) := by
  by_cases happlied : d.Applied q
  · obtain rfl := retries_eq_zero happlied hretries
    rw [apply_applied (show ({ d with next := d.next + 0 } : SimulatedDataplane).Applied q from
      happlied)]
    refine ⟨?_, rfl, ?_, fun h => by cases h⟩
    · rw [nthOutcome, if_pos happlied]
    · rw [cursorAfter, if_pos happlied, Nat.add_zero]
  · have hread := retries_unconsumed happlied hretries
    have hlength : d.unconsumed.length = d.outcomes.length - d.next := List.length_drop
    rw [apply_new (show ¬ ({ d with next := d.next + i } : SimulatedDataplane).Applied q from
      happlied)]
    refine ⟨?_, rfl, ?_, fun h => ?_⟩
    · rw [nthOutcome, if_neg happlied, Nat.add_sub_cancel, scripted_unconsumed]
    · rw [cursorAfter, if_neg happlied]
      dsimp only [record]
      omega
    · dsimp only at h
      have hscript : d.next + i < d.outcomes.length :=
        lt_length_of_scripted (by rw [h]; decide)
      have hcursor : min (d.next + i + 1) (max (d.next + i) d.outcomes.length)
          = d.next + (i + 1) := by omega
      rw [record, h, hcursor]
      rfl

/-! ## Retried attempts -/

section Retries

variable {d : SimulatedDataplane} {version : UInt64} {service : RuleService} {i : Nat}

/-- Before a call that follows retried calls only, the cursor has moved by
their number and nothing else has changed. -/
theorem atCall_port
    (hretries : d.Retries (service.latestUpdateId, version) i) :
    atCall port version service d i = (service, { d with next := d.next + i }) := by
  induction i with
  | zero => rfl
  | succ i ih =>
    have hearlier := hretries.mono (Nat.le_succ i)
    have hbefore := ih hearlier
    have hreply := apply_nth d (service.latestUpdateId, version) (.ofNat (i + 1)) hearlier
    have hretry := hreply.outcome.trans (hretries i (Nat.lt_succ_self i))
    rw [atCall, hbefore]
    exact Prod.ext rfl (hreply.retried hretry)

/-- The call itself. -/
theorem replyAt_port
    (hretries : d.Retries (service.latestUpdateId, version) i) :
    (replyAt port version service d i).calls = [] ∧
      NthReply d (service.latestUpdateId, version) i
        ((replyAt port version service d i).result, (replyAt port version service d i).state) := by
  rw [replyAt, atCall_port hretries]
  exact ⟨rfl, apply_nth d (service.latestUpdateId, version) (.ofNat (i + 1)) hretries⟩

/-- The service when it has returned. -/
theorem after_port
    (hretries : d.Retries (service.latestUpdateId, version) i) :
    (callAt port version service d i).after = service := by
  rw [ApplyCall.after, callAt]
  dsimp only
  rw [(replyAt_port hretries).1, atCall_port hretries]
  rfl

end Retries

/-! ## Reconciliation -/

/-- What a reconciliation reports, does to the service and does to the script
when `k` is the index of the first outcome that is not TRANSIENT_FAILURE. -/
structure Retried (d : SimulatedDataplane) (service : RuleService) (intended : RuleSet)
    (maximumAttempts : UInt32) (k : Nat) (status : ReconciliationStatus) (after : RuleService)
    (d' : SimulatedDataplane) : Prop where
  attempts : status.attempts.toNat = min k maximumAttempts.toNat
  converged : status.converged = true ↔ k ≤ maximumAttempts.toNat ∧
    d.nthOutcome (service.latestUpdateId, intended.version) k = .success
  delayed : status.delayed = true ↔ k ≤ maximumAttempts.toNat ∧
    d.nthOutcome (service.latestUpdateId, intended.version) k = .delayedSuccess
  script : d'.outcomes = d.outcomes
  cursor : d'.next = d.cursorAfter (service.latestUpdateId, intended.version)
    (min k maximumAttempts.toNat)
  acknowledged : status.converged = true → after.appliedVersion = intended.version ∧
    after.convergence = .converged ∧ after = { service with appliedVersion := intended.version }
  untouched : status.converged = false → after = service

section Reconcile

variable {d : SimulatedDataplane} {service : RuleService} {intended : RuleSet}
  {maximumAttempts : UInt32} {i : Nat}

/-- What `reconcile` returns when it stops at a call, by the outcome. -/
theorem stopAt_port (hintended : service.intended = some intended)
    (hretries : d.Retries (service.latestUpdateId, intended.version) i) :
    let outcome := d.nthOutcome (service.latestUpdateId, intended.version) (i + 1)
    stopAt port intended.version service d i
      = ({ converged := outcome == .success, attempts := .ofNat (i + 1),
            delayed := outcome == .delayedSuccess },
        if outcome = .success then { service with appliedVersion := intended.version } else service,
        (replyAt port intended.version service d i).state) := by
  dsimp only
  rw [← (replyAt_port hretries).2.outcome]
  unfold stopAt
  dsimp only
  rw [after_port hretries]
  cases (replyAt port intended.version service d i).result.outcome with
  | success => rw [RuleService.markApplied_intended_version hintended]; rfl
  | delayedSuccess => rfl
  | permanentFailure => rfl
  | transientFailure => rfl

/-- The loop stops at the first outcome that is not TRANSIENT_FAILURE. -/
theorem retried_stop (hintended : service.intended = some intended)
    (hroom : i < maximumAttempts.toNat)
    (hretries : d.Retries (service.latestUpdateId, intended.version) i) :
    let stop := stopAt port intended.version service d i
    Retried d service intended maximumAttempts (i + 1) stop.1 stop.2.1 stop.2.2 := by
  obtain ⟨-, hreply⟩ := replyAt_port hretries
  have hlt := maximumAttempts.toNat_lt
  have hmin : min (i + 1) maximumAttempts.toNat = i + 1 := by omega
  rw [stopAt_port hintended hretries]
  refine ⟨?_, ?_, ?_, hreply.script, ?_, fun h => ?_, fun h => ?_⟩
  · rw [hmin]
    exact toNat_attempt (by omega)
  · simp [Nat.succ_le_of_lt hroom]
  · simp [Nat.succ_le_of_lt hroom]
  · rw [hmin]
    exact hreply.cursor
  · have hsuccess := beq_iff_eq.mp h
    dsimp only
    rw [if_pos hsuccess]
    refine ⟨rfl, ?_, rfl⟩
    rw [← RuleService.markApplied_intended_version hintended]
    exact RuleService.markApplied_latest hintended
  · exact if_neg (beq_eq_false_iff_ne.mp h)

/-- A budget used up by retries. -/
theorem retried_exhaust {k : Nat} (hbehind : maximumAttempts.toNat < k)
    (hretries : d.Retries (service.latestUpdateId, intended.version) maximumAttempts.toNat) :
    Retried d service intended maximumAttempts k { attempts := maximumAttempts } service
      { d with next := d.next + maximumAttempts.toNat } := by
  have hmin : min k maximumAttempts.toNat = maximumAttempts.toNat := by omega
  refine ⟨hmin.symm, ?_, ?_, rfl, ?_, (fun h => by cases h), fun _ => rfl⟩
  · simp [Nat.not_le_of_lt hbehind]
  · simp [Nat.not_le_of_lt hbehind]
  · rw [hmin, cursorAfter_retries hretries]

end Reconcile

/-- The script ends, so some outcome is not TRANSIENT_FAILURE. -/
theorem exists_first (d : SimulatedDataplane) (q : UpdatePair) :
    ∃ k, IsLeast {i | 1 ≤ i ∧ d.nthOutcome q i ≠ .transientFailure} k := by
  classical
  have hsome : ∃ i, 1 ≤ i ∧ d.nthOutcome q i ≠ .transientFailure := by
    refine ⟨d.unconsumed.length + 1, Nat.le_add_left 1 _, ?_⟩
    rw [nthOutcome, Nat.add_sub_cancel, scripted, List.getD_eq_default _ _ (Nat.le_refl _), ite_self]
    decide
  exact ⟨Nat.find hsome, Nat.find_spec hsome, fun _ h => Nat.find_min' hsome h⟩

/-- **Retries against the scripted adapter.** -/
theorem reconcile_scripted (d : SimulatedDataplane) {service : RuleService} {intended : RuleSet}
    (hintended : service.intended = some intended) {maximumAttempts : UInt32}
    (hbudget : maximumAttempts.toNat < 2 ^ 32 - 1) :
    ∃ k, IsLeast {i | 1 ≤ i ∧
        d.nthOutcome (service.latestUpdateId, intended.version) i ≠ .transientFailure} k ∧
      ∃ status after d',
        (∀ fuel, maximumAttempts.toNat < fuel →
          reconcile port maximumAttempts fuel service d = some (status, after, d')) ∧
        Retried d service intended maximumAttempts k status after d' := by
  obtain ⟨k, hleast⟩ := exists_first d (service.latestUpdateId, intended.version)
  refine ⟨k, hleast, ?_⟩
  obtain ⟨⟨hfirst, hstop⟩, hbelow⟩ := hleast
  obtain ⟨i, rfl⟩ : ∃ i, k = i + 1 := ⟨k - 1, by omega⟩
  have hretries : d.Retries (service.latestUpdateId, intended.version) i := by
    intro j hj
    by_contra hne
    have hle := hbelow ⟨Nat.le_add_left 1 j, hne⟩
    omega
  have hcalls : ∀ j ≤ i, outcomeAt port intended.version service d j
      = d.nthOutcome (service.latestUpdateId, intended.version) (j + 1) := fun j hj =>
    (replyAt_port (hretries.mono hj)).2.outcome
  by_cases hroom : i < maximumAttempts.toNat
  · refine ⟨_, _, _, fun fuel hfuel => ?_, retried_stop hintended hroom hretries⟩
    rw [← reconcileLogged_result, reconcileLogged_stops port maximumAttempts intended service d
      hintended hroom (fun j hj => (hcalls j hj.le).trans (hretries j hj))
      (by rw [hcalls i le_rfl]; exact hstop) (by omega)]
  · have hused := hretries.mono (Nat.not_lt.mp hroom)
    refine ⟨_, _, _, fun fuel hfuel => ?_, retried_exhaust (by omega) hused⟩
    rw [← reconcileLogged_result, reconcileLogged_exhausts port maximumAttempts intended service d
      hintended hbudget (fun j hj => (hcalls j (by omega)).trans (hused j hj)) hfuel,
      atCall_port hused]

/-- The script of `tests/state/reconciliation_tests.cpp`: one transient
failure, then a success. -/
theorem reconcile_scripted_stable :
    let service := ((RuleService.new {}).update "stable" basicRules).2
    let d := new [{ outcome := .transientFailure }, {}]
    ∃ k, IsLeast {i | 1 ≤ i ∧
        d.nthOutcome (service.latestUpdateId, basicRules.version) i ≠ .transientFailure} k ∧
      ∃ status after d',
        (∀ fuel, (3 : UInt32).toNat < fuel →
          reconcile port 3 fuel service d = some (status, after, d')) ∧
        Retried d service basicRules 3 k status after d' := by
  have hintended : ((RuleService.new {}).update "stable" basicRules).2.intended = some basicRules :=
    rfl
  exact reconcile_scripted _ hintended (by decide)

end SimulatedDataplane

end UpfPolicy
