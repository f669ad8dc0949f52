/-
UpfPolicy.Adapters.Deployment — a rule service, the scripted dataplane and
the controller between them, as the scenarios of
`src/application/scenario_runner.cpp` build them.

The calls on the three are interleaved in any order: updates and removals
on the service, reconciliations with any budget, and completions on the
dataplane with any arguments. One reconciliation is characterised once
(`ReconcileOutcome`): it does nothing, it converges, or it leaves the
service alone and shortens the script. Two results about runs follow.

  * `deployment_truthful` — the dataplane applies nothing but accepted
    updates, and convergence is claimed for versions it has applied only.
  * `deployment_converges` — once updates stop, more reconciliations than
    there are outcomes left in the script converge, whatever comes in
    between.
-/
import UpfPolicy.Adapters.SimulatedRetryTheorems
import UpfPolicy.Application.VersionTheorems

namespace UpfPolicy

open Support ReconciliationController SimulatedDataplane

structure Deployment where
  service : RuleService
  dataplane : SimulatedDataplane

inductive DeploymentCall where
  | update (updateId : String) (candidate : RuleSet)
  | remove (updateId : String) (version : UInt64)
  /-- A `ReconciliationController` with this budget, and its `reconcile`. -/
  | reconcile (maximumAttempts : UInt32)
  | completeDelayed (updateId : String) (version : UInt64) (latestUpdateId : String)
      (latestVersion : UInt64)

inductive DeploymentReply where
  | returned (result : Except String Unit)
  | reconciled (status : ReconciliationStatus)
  | completed (done : Bool)

namespace Deployment

def new (limits : CapacityLimits) (outcomes : List AdapterResult) : Deployment :=
  ⟨.new limits, .new outcomes⟩

/-- One call. The fuel is one more than the outcomes left in the script. -/
def exec (s : Deployment) : DeploymentCall → Option (DeploymentReply × Deployment)
  | .update updateId candidate =>
    let (result, service) := s.service.update updateId candidate
    some (.returned result, { s with service })
  | .remove updateId version =>
    let (result, service) := s.service.remove updateId version
    some (.returned result, { s with service })
  | .reconcile maximumAttempts =>
    (reconcile port maximumAttempts (s.dataplane.unconsumed.length + 1) s.service
      s.dataplane).map fun (status, service, dataplane) => (.reconciled status, ⟨service, dataplane⟩)
  | .completeDelayed updateId version latestUpdateId latestVersion =>
    let (done, dataplane) :=
      s.dataplane.completeDelayed updateId version latestUpdateId latestVersion
    some (.completed done, { s with dataplane })

end Deployment

/-! ## One reconciliation -/

section Loop

variable {service : RuleService} {rules : RuleSet}

/-- What the attempt loop does to a dataplane on behalf of a pair: it plays
outcomes of the script, applies the pair or not, and records nothing else. -/
structure Attempted (d : SimulatedDataplane) (q : UpdatePair) (success : Bool)
    (d' : SimulatedDataplane) : Prop where
  applied : ∀ r, d'.Applied r ↔ d.Applied r ∨ (r = q ∧ success = true)
  delayed : ∀ r, d'.Delayed r → d.Delayed r ∨ r = q
  shorter : d'.unconsumed.length ≤ d.unconsumed.length

/-- What the attempt loop returns: convergence of the intended version, or
the service as it was. -/
inductive LoopOutcome (service : RuleService) (rules : RuleSet) (d : SimulatedDataplane)
    (status : ReconciliationStatus) (after : RuleService) (d' : SimulatedDataplane) : Prop where
  | converged (hstatus : status.converged = true)
      (hattempted : Attempted d (service.latestUpdateId, rules.version) true d')
      (hafter : after = { service with appliedVersion := rules.version })
  | diverged (hstatus : status.converged = false)
      (hattempted : Attempted d (service.latestUpdateId, rules.version) false d')
      (hafter : after = service)

/-- An attempt after a failed one. -/
theorem Attempted.after {d d' d'' : SimulatedDataplane} {q : UpdatePair} {success : Bool}
    (h : Attempted d q false d') (h' : Attempted d' q success d'') : Attempted d q success d'' where
  applied r := by rw [h'.applied, h.applied]; simp
  delayed r hr := by
    rcases h'.delayed r hr with hold | hq
    · exact h.delayed r hold
    · exact Or.inr hq
  shorter := Nat.le_trans h'.shorter h.shorter

theorem LoopOutcome.after {d d' d'' : SimulatedDataplane} {status : ReconciliationStatus}
    {after : RuleService} (houtcome : LoopOutcome service rules d' status after d'')
    (h : Attempted d (service.latestUpdateId, rules.version) false d') :
    LoopOutcome service rules d status after d'' := by
  cases houtcome with
  | converged hstatus hattempted hafter => exact .converged hstatus (h.after hattempted) hafter
  | diverged hstatus hattempted hafter => exact .diverged hstatus (h.after hattempted) hafter

theorem LoopOutcome.shorter {d d' : SimulatedDataplane} {status : ReconciliationStatus}
    {after : RuleService} (houtcome : LoopOutcome service rules d status after d') :
    d'.unconsumed.length ≤ d.unconsumed.length := by
  cases houtcome with
  | converged _ hattempted => exact hattempted.shorter
  | diverged _ hattempted => exact hattempted.shorter

/-- The script is one outcome shorter after an outcome was played. -/
theorem unconsumed_played {d d' : SimulatedDataplane} (hscript : d'.outcomes = d.outcomes)
    (hnext : d'.next = min (d.next + 1) (max d.next d.outcomes.length)) :
    d'.unconsumed.length = d.unconsumed.length - 1 := by
  simp only [unconsumed, List.length_drop, hscript, hnext]
  omega

theorem port_apply (s : RuleService) (d : SimulatedDataplane) (updateId : String)
    (version : UInt64) (attempt : UInt32) :
    port.apply s d updateId version attempt
      = { result := (d.apply updateId version attempt).1
          state := (d.apply updateId version attempt).2 } := rfl

/-- One `apply`: a success, or an outcome that shortens the script. -/
theorem apply_attempted (d : SimulatedDataplane) (q : UpdatePair) (attempt : UInt32) :
    Attempted d q ((d.apply q.1 q.2 attempt).1.outcome == .success) (d.apply q.1 q.2 attempt).2 ∧
      ((d.apply q.1 q.2 attempt).1.outcome ≠ .success →
        (d.apply q.1 q.2 attempt).2.unconsumed.length < d.unconsumed.length) := by
  have houtcome := apply_outcome d q.1 q.2 attempt
  generalize d.apply q.1 q.2 attempt = reply at houtcome
  obtain ⟨result, d'⟩ := reply
  cases houtcome with
  | repeated happlied hreply hsame =>
    cases hreply
    subst hsame
    refine ⟨⟨fun r => ?_, fun r hr => Or.inl hr, Nat.le_refl _⟩, fun hne => absurd rfl hne⟩
    refine ⟨Or.inl, fun h => ?_⟩
    rcases h with h | ⟨rfl, -⟩
    · exact h
    · exact happlied
  | played hcall _ hreply hresult hscript hnext happlied hdelayed =>
    cases hcall
    cases hreply
    have hlength := unconsumed_played hscript hnext
    refine ⟨⟨fun r => ?_, fun r hr => ?_, by omega⟩, fun hne => ?_⟩
    · rw [happlied r]
      simp [DataplaneCall.pair]
    · rcases (hdelayed r).mp hr with hold | ⟨rfl, -⟩
      · exact Or.inl hold
      · exact Or.inr rfl
    · -- an outcome other than SUCCESS was still in the script
      have hin : d.next < d.outcomes.length := lt_length_of_scripted (hresult ▸ hne)
      have hleft : d.unconsumed.length = d.outcomes.length - d.next := List.length_drop
      omega
  | completed hcall => cases hcall
  | refused hcall => cases hcall

/-- **The attempt loop** over the scripted dataplane returns for every
budget, and a turn that does not converge shortens the script. -/
theorem attemptLoop_port (hintended : service.intended = some rules) (maximumAttempts : UInt32)
    {fuel : Nat} (attempt : UInt32) {status : ReconciliationStatus} {d : SimulatedDataplane}
    (hfuel : d.unconsumed.length < fuel) (hstatus : status.converged = false) :
    ∃ status' after d',
      attemptLoop port maximumAttempts rules fuel attempt status service d
          = some (status', after, d') ∧
        LoopOutcome service rules d status' after d' ∧
        (attempt ≤ maximumAttempts → status'.converged = false →
          d'.unconsumed.length < d.unconsumed.length) := by
  induction fuel generalizing attempt status d with
  | zero => exact absurd hfuel (Nat.not_lt_zero _)
  | succ fuel ih =>
    rw [attemptLoop]
    by_cases hattempt : attempt ≤ maximumAttempts
    · rw [if_pos hattempt]
      obtain ⟨hattempted, hshorter⟩ :=
        apply_attempted d (service.latestUpdateId, rules.version) attempt
      simp only [port_apply, List.foldl_nil]
      generalize d.apply service.latestUpdateId rules.version attempt = reply
        at hattempted hshorter ⊢
      obtain ⟨⟨outcome, dueTimeMicros⟩, d'⟩ := reply
      cases outcome with
      | success =>
        refine ⟨_, _, _, rfl, .converged rfl hattempted ?_, fun _ h => by cases h⟩
        exact RuleService.markApplied_intended_version hintended
      | delayedSuccess =>
        exact ⟨_, _, _, rfl, .diverged hstatus hattempted rfl, fun _ _ => hshorter (fun h => by cases h)⟩
      | permanentFailure =>
        exact ⟨_, _, _, rfl, .diverged hstatus hattempted rfl, fun _ _ => hshorter (fun h => by cases h)⟩
      | transientFailure =>
        have hless : d'.unconsumed.length < d.unconsumed.length := hshorter (fun h => by cases h)
        have hcounted :
            ({ status with attempts := status.attempts + 1 } : ReconciliationStatus).converged
              = false := hstatus
        obtain ⟨status', after, d'', hloop, houtcome, -⟩ :=
          ih (attempt + 1) (d := d') (by omega) hcounted
        refine ⟨status', after, d'', hloop, houtcome.after hattempted, fun _ _ => ?_⟩
        exact Nat.lt_of_le_of_lt houtcome.shorter hless
    · rw [if_neg hattempt]
      refine ⟨_, _, _, rfl, .diverged hstatus ⟨fun r => by simp, fun r => Or.inl, Nat.le_refl _⟩ rfl,
        fun h => absurd h hattempt⟩

end Loop

/-- **Everything a reconciliation can do.** -/
inductive ReconcileOutcome (service : RuleService) (maximumAttempts : UInt32)
    (d : SimulatedDataplane) (status : ReconciliationStatus) (after : RuleService)
    (d' : SimulatedDataplane) : Prop where
  | idle (hidle : service.intended = none ∨ maximumAttempts = 0) (hstatus : status = {})
      (hafter : after = service) (hsame : d' = d)
  | attempted {rules : RuleSet} (hintended : service.intended = some rules)
      (hloop : LoopOutcome service rules d status after d')
      (hshorter : status.converged = false → d'.unconsumed.length < d.unconsumed.length)

theorem reconcile_outcome (service : RuleService) (maximumAttempts : UInt32)
    (d : SimulatedDataplane) :
    ∃ status after d', reconcile port maximumAttempts (d.unconsumed.length + 1) service d
        = some (status, after, d') ∧
      ReconcileOutcome service maximumAttempts d status after d' := by
  unfold reconcile
  cases hintended : service.intended with
  | none => exact ⟨_, _, _, rfl, .idle (Or.inl hintended) rfl rfl rfl⟩
  | some rules =>
    dsimp only
    by_cases hzero : maximumAttempts = 0
    · rw [if_pos hzero]
      exact ⟨_, _, _, rfl, .idle (Or.inr hzero) rfl rfl rfl⟩
    · rw [if_neg hzero]
      have hfirst : 1 ≤ maximumAttempts := by
        have hpositive : maximumAttempts.toNat ≠ 0 := fun h => hzero (UInt32.toNat_inj.mp h)
        rw [UInt32.le_iff_toNat_le, UInt32.toNat_one]
        omega
      obtain ⟨status, after, d', hloop, houtcome, hshorter⟩ :=
        attemptLoop_port hintended maximumAttempts 1 (Nat.lt_succ_self _)
          (show ({} : ReconciliationStatus).converged = false from rfl)
      exact ⟨status, after, d', hloop, .attempted hintended houtcome (hshorter hfirst)⟩

/-! ## Any interleaving -/

namespace Deployment

abbrev DeploymentEvent := Event Deployment DeploymentCall DeploymentReply

/-- The service accepted an update with this ID and version. -/
def Accepted (es : List DeploymentEvent) (q : UpdatePair) : Prop :=
  ∃ e ∈ es, ∃ rules, e.input = .update q.1 rules ∧ e.output = .returned (.ok ()) ∧
    rules.version = q.2

theorem Accepted.mono {es : List DeploymentEvent} {q : UpdatePair} (h : Accepted es q)
    (e : DeploymentEvent) : Accepted (es ++ [e]) q := by
  obtain ⟨f, hf, hrest⟩ := h
  exact ⟨f, List.mem_append_left _ hf, hrest⟩

/-- The dataplane holds accepted updates only, and the acknowledged version
is one it has applied. -/
structure Inv (es : List DeploymentEvent) (s : Deployment) : Prop where
  holding : ∃ held, s.service.Holding held
  intended : ∀ rules, s.service.intended = some rules →
    rules.version ≠ 0 ∧ Accepted es (s.service.latestUpdateId, rules.version)
  applied : ∀ q, s.dataplane.Applied q → Accepted es q
  delayed : ∀ q, s.dataplane.Delayed q → Accepted es q
  acknowledged : s.service.appliedVersion = 0 ∨
    ∃ updateId, s.dataplane.Applied (updateId, s.service.appliedVersion)

theorem inv_new (limits : CapacityLimits) (outcomes : List AdapterResult) :
    Inv [] (new limits outcomes) where
  holding := ⟨{}, RuleService.holding_new limits⟩
  intended := fun _ h => by cases h
  applied := fun q h => by simp [new, SimulatedDataplane.new, Applied] at h
  delayed := fun q h => by simp [new, SimulatedDataplane.new, Delayed] at h
  acknowledged := Or.inl rfl

section Step

variable {es : List DeploymentEvent} {s : Deployment}

theorem Inv.update (h : Inv es s) (updateId : String) (rules : RuleSet) :
    Inv (es ++ [⟨s, .update updateId rules, .returned (s.service.update updateId rules).1,
        { s with service := (s.service.update updateId rules).2 }⟩])
      { s with service := (s.service.update updateId rules).2 } := by
  obtain ⟨held, hheld⟩ := h.holding
  have houtcome := hheld.update_outcome updateId rules
  have hholding := houtcome.holding hheld
  generalize s.service.update updateId rules = result at houtcome hholding ⊢
  obtain ⟨reply, service⟩ := result
  refine ⟨⟨_, hholding⟩, ?_, fun q hq => (h.applied q hq).mono _, fun q hq => (h.delayed q hq).mono _,
    ?_⟩
  · intro rules' hrules'
    dsimp only at hrules' houtcome
    cases houtcome with
    | updated hadmits =>
      cases hrules'
      exact ⟨hadmits.valid.version, _, List.mem_append_right _ (List.mem_singleton_self _), rules,
        rfl, rfl, rfl⟩
    | updateRejected =>
      obtain ⟨hversion, haccepted⟩ := h.intended rules' hrules'
      exact ⟨hversion, haccepted.mono _⟩
  · dsimp only at houtcome
    cases houtcome with
    | updated => exact h.acknowledged
    | updateRejected => exact h.acknowledged

theorem Inv.remove (h : Inv es s) (updateId : String) (version : UInt64) :
    Inv (es ++ [⟨s, .remove updateId version, .returned (s.service.remove updateId version).1,
        { s with service := (s.service.remove updateId version).2 }⟩])
      { s with service := (s.service.remove updateId version).2 } := by
  obtain ⟨held, hheld⟩ := h.holding
  have houtcome := RuleService.remove_outcome s.service updateId version
  have hholding := houtcome.holding hheld
  generalize s.service.remove updateId version = result at houtcome hholding ⊢
  obtain ⟨reply, service⟩ := result
  refine ⟨⟨_, hholding⟩, ?_, fun q hq => (h.applied q hq).mono _, fun q hq => (h.delayed q hq).mono _,
    ?_⟩
  · intro rules hrules
    dsimp only at hrules houtcome
    cases houtcome with
    | removed => cases hrules
    | removeRejected =>
      obtain ⟨hversion, haccepted⟩ := h.intended rules hrules
      exact ⟨hversion, haccepted.mono _⟩
  · dsimp only at houtcome
    cases houtcome with
    | removed => exact h.acknowledged
    | removeRejected => exact h.acknowledged

/-- What the dataplane gains is the intended pair, which was accepted. -/
theorem Inv.attempted (h : Inv es s) {rules : RuleSet} (hintended : s.service.intended = some rules)
    {success : Bool} {d' : SimulatedDataplane} (e : DeploymentEvent)
    (hattempted : Attempted s.dataplane (s.service.latestUpdateId, rules.version) success d') :
    (∀ q, d'.Applied q → Accepted (es ++ [e]) q) ∧ ∀ q, d'.Delayed q → Accepted (es ++ [e]) q := by
  have haccepted := (h.intended rules hintended).2.mono e
  refine ⟨fun q hq => ?_, fun q hq => ?_⟩
  · rcases (hattempted.applied q).mp hq with hold | ⟨rfl, -⟩
    · exact (h.applied q hold).mono e
    · exact haccepted
  · rcases hattempted.delayed q hq with hold | rfl
    · exact (h.delayed q hold).mono e
    · exact haccepted

/-- Nothing happened. -/
theorem Inv.mono (h : Inv es s) (e : DeploymentEvent) : Inv (es ++ [e]) s where
  holding := h.holding
  intended rules hrules := ⟨(h.intended rules hrules).1, (h.intended rules hrules).2.mono e⟩
  applied q hq := (h.applied q hq).mono e
  delayed q hq := (h.delayed q hq).mono e
  acknowledged := h.acknowledged

theorem Inv.reconcile (h : Inv es s) {maximumAttempts : UInt32} {status : ReconciliationStatus}
    {after : RuleService} {d' : SimulatedDataplane} (e : DeploymentEvent)
    (houtcome : ReconcileOutcome s.service maximumAttempts s.dataplane status after d') :
    Inv (es ++ [e]) ⟨after, d'⟩ := by
  have hintended : ∀ rules, s.service.intended = some rules →
      rules.version ≠ 0 ∧ Accepted (es ++ [e]) (s.service.latestUpdateId, rules.version) :=
    (h.mono e).intended
  cases houtcome with
  | idle _ _ hafter hsame =>
    subst hafter hsame
    exact h.mono e
  | @attempted rules hsome hloop _ =>
    obtain ⟨held, hheld⟩ := h.holding
    cases hloop with
    | converged _ hattempted hafter =>
      obtain ⟨happlied, hdelayed⟩ := h.attempted hsome e hattempted
      subst hafter
      exact ⟨⟨held, { hheld with }⟩, hintended, happlied, hdelayed,
        Or.inr ⟨_, (hattempted.applied _).mpr (Or.inr ⟨rfl, rfl⟩)⟩⟩
    | diverged _ hattempted hafter =>
      obtain ⟨happlied, hdelayed⟩ := h.attempted hsome e hattempted
      subst hafter
      refine ⟨⟨held, hheld⟩, hintended, happlied, hdelayed, ?_⟩
      rcases h.acknowledged with hzero | ⟨updateId, hacked⟩
      · exact Or.inl hzero
      · exact Or.inr ⟨updateId, (hattempted.applied _).mpr (Or.inl hacked)⟩

theorem Inv.completeDelayed (h : Inv es s) (e : DeploymentEvent) {updateId latestUpdateId : String}
    {version latestVersion : UInt64} {reply : DataplaneReply} {d' : SimulatedDataplane}
    (houtcome : CallOutcome s.dataplane
      (.completeDelayed updateId version latestUpdateId latestVersion) reply d') :
    Inv (es ++ [e]) { s with dataplane := d' } := by
  cases houtcome with
  | repeated _ _ hsame => subst hsame; exact h.mono e
  | played hcall => cases hcall
  | completed hcall _ hwas _ _ _ happlied hdelayed =>
    cases hcall
    refine ⟨h.holding, (h.mono e).intended, fun q hq => ?_, fun q hq => ?_, ?_⟩
    · rcases (happlied q).mp hq with hold | rfl
      · exact (h.applied q hold).mono e
      · exact (h.delayed _ hwas).mono e
    · exact (h.delayed q ((hdelayed q).mp hq).1).mono e
    · rcases h.acknowledged with hzero | ⟨id, hacked⟩
      · exact Or.inl hzero
      · exact Or.inr ⟨id, (happlied _).mpr (Or.inl hacked)⟩
  | refused _ _ _ hsame => subst hsame; exact h.mono e

/-- **Every call returns and keeps the invariant.** -/
theorem Inv.exec (h : Inv es s) (call : DeploymentCall) :
    ∃ reply t, s.exec call = some (reply, t) ∧ Inv (es ++ [⟨s, call, reply, t⟩]) t := by
  cases call with
  | update updateId rules => exact ⟨_, _, rfl, h.update updateId rules⟩
  | remove updateId version => exact ⟨_, _, rfl, h.remove updateId version⟩
  | reconcile maximumAttempts =>
    obtain ⟨status, after, d', hreturns, houtcome⟩ :=
      reconcile_outcome s.service maximumAttempts s.dataplane
    refine ⟨.reconciled status, ⟨after, d'⟩, ?_, h.reconcile _ houtcome⟩
    rw [Deployment.exec, hreturns]
    rfl
  | completeDelayed updateId version latestUpdateId latestVersion =>
    exact ⟨_, _, rfl, h.completeDelayed _ (completeDelayed_outcome ..)⟩

end Step

/-- Every list of calls has a run, which keeps the invariant. -/
theorem inv_run (limits : CapacityLimits) (outcomes : List AdapterResult)
    (calls : List DeploymentCall) :
    ∃ es s, run exec (new limits outcomes) calls = some (es, s) ∧ Inv es s := by
  have hdef : ∀ s call, (∃ es, Inv es s) →
      ∃ reply t, exec s call = some (reply, t) ∧ ∃ es, Inv es t := by
    rintro s call ⟨es, h⟩
    obtain ⟨reply, t, hexec, ht⟩ := h.exec call
    exact ⟨reply, t, hexec, _, ht⟩
  obtain ⟨es, s, hrun⟩ := run_total hdef calls ⟨[], inv_new limits outcomes⟩
  refine ⟨es, s, hrun, ?_⟩
  have hrecorded := recorded_of_run hrun
  clear hrun
  induction hrecorded with
  | nil => exact inv_new limits outcomes
  | snoc _ hexec ih =>
    obtain ⟨reply, t, hexec', ht⟩ := ih.exec _
    cases hexec.symm.trans hexec'
    exact ht

/-- **Convergence is truthful under any interleaving.** Whatever updates,
removals, reconciliations and completions are made: the dataplane has
applied accepted updates only; CONVERGED means that it has applied the
intended version, and the latest update itself unless its version was
accepted under another ID as well. -/
theorem deployment_truthful (limits : CapacityLimits) (outcomes : List AdapterResult)
    (calls : List DeploymentCall) :
    ∃ es s, run exec (new limits outcomes) calls = some (es, s) ∧
      (∀ q, s.dataplane.Applied q → Accepted es q) ∧
      (s.service.convergence = .converged → ∃ rules, s.service.intended = some rules ∧
        (∃ updateId, s.dataplane.Applied (updateId, rules.version)) ∧
        ((∀ updateId, Accepted es (updateId, rules.version) →
            updateId = s.service.latestUpdateId) →
          s.dataplane.Applied (s.service.latestUpdateId, rules.version))) := by
  obtain ⟨es, s, hrun, hinv⟩ := inv_run limits outcomes calls
  refine ⟨es, s, hrun, hinv.applied, fun hconverged => ?_⟩
  obtain ⟨rules, hintended, hversion⟩ := RuleService.convergence_eq_converged.mp hconverged
  refine ⟨rules, hintended, ?_⟩
  have hacked : ∃ updateId, s.dataplane.Applied (updateId, rules.version) := by
    rcases hinv.acknowledged with hzero | hacked
    · exact absurd (hversion.trans hzero) (hinv.intended rules hintended).1
    · rwa [hversion]
  refine ⟨hacked, fun hunique => ?_⟩
  obtain ⟨updateId, happlied⟩ := hacked
  rw [← hunique updateId (hinv.applied _ happlied)]
  exact happlied

/-! ## Once updates stop -/

/-- The call leaves the intended ruleset alone, and has an attempt to spend
if it reconciles. -/
def Settles : DeploymentCall → Prop
  | .update .. => False
  | .remove .. => False
  | .reconcile maximumAttempts => maximumAttempts ≠ 0
  | .completeDelayed .. => True

def reconciles : DeploymentCall → Bool
  | .reconcile _ => true
  | _ => false

/-- The dataplane has applied the intended ruleset and the service knows. -/
structure Settled (rules : RuleSet) (s : Deployment) : Prop where
  applied : s.dataplane.Applied (s.service.latestUpdateId, rules.version)
  acknowledged : s.service.appliedVersion = rules.version

/-- The service is the one of the start, up to the acknowledged version. -/
structure SameIntent (rules : RuleSet) (service : RuleService) (s : Deployment) : Prop where
  intended : s.service.intended = some rules
  same : s.service = { service with appliedVersion := s.service.appliedVersion }

/-- What one settling call does: it keeps what is settled, and a
reconciliation settles or shortens the script. -/
structure Progress (rules : RuleSet) (service : RuleService) (s : Deployment)
    (call : DeploymentCall) (t : Deployment) : Prop where
  intent : SameIntent rules service t
  keeps : Settled rules s → Settled rules t
  shorter : t.dataplane.unconsumed.length ≤ s.dataplane.unconsumed.length
  settles : reconciles call = true →
    Settled rules t ∨ t.dataplane.unconsumed.length < s.dataplane.unconsumed.length

section Settle

variable {s : Deployment} {rules : RuleSet} {service : RuleService}

theorem progress_reconcile (h : SameIntent rules service s) {maximumAttempts : UInt32}
    (hbudget : maximumAttempts ≠ 0) {status : ReconciliationStatus} {after : RuleService}
    {d' : SimulatedDataplane}
    (houtcome : ReconcileOutcome s.service maximumAttempts s.dataplane status after d') :
    Progress rules service s (.reconcile maximumAttempts) ⟨after, d'⟩ := by
  have hintent := h.intended
  cases houtcome with
  | idle hidle =>
    rcases hidle with hnone | hzero
    · rw [hnone] at hintent; cases hintent
    · exact absurd hzero hbudget
  | attempted hintended hloop hshorter =>
    cases hintended.symm.trans hintent
    cases hloop with
    | converged _ hattempted hafter =>
      subst hafter
      have hsettled : Settled rules ⟨{ s.service with appliedVersion := rules.version }, d'⟩ :=
        ⟨(hattempted.applied _).mpr (Or.inr ⟨rfl, rfl⟩), rfl⟩
      refine ⟨⟨hintent, ?_⟩, fun _ => hsettled, hattempted.shorter, fun _ => Or.inl hsettled⟩
      dsimp only
      rw [h.same]
    | diverged hstatus hattempted hafter =>
      subst hafter
      exact ⟨⟨hintent, h.same⟩,
        fun hs => ⟨(hattempted.applied _).mpr (Or.inl hs.applied), hs.acknowledged⟩,
        hattempted.shorter, fun _ => Or.inr (hshorter hstatus)⟩

theorem progress_completeDelayed (h : SameIntent rules service s) {updateId latestUpdateId : String}
    {version latestVersion : UInt64} {reply : DataplaneReply} {d' : SimulatedDataplane}
    (houtcome : CallOutcome s.dataplane
      (.completeDelayed updateId version latestUpdateId latestVersion) reply d') :
    Progress rules service s (.completeDelayed updateId version latestUpdateId latestVersion)
      { s with dataplane := d' } := by
  cases houtcome with
  | repeated _ _ hsame =>
    subst hsame
    exact ⟨h, id, Nat.le_refl _, fun hr => by cases hr⟩
  | played hcall => cases hcall
  | completed hcall _ _ _ hscript hnext happlied =>
    refine ⟨⟨h.intended, h.same⟩, fun hs => ⟨(happlied _).mpr (Or.inl hs.applied), hs.acknowledged⟩,
      ?_, fun hr => by cases hr⟩
    simp only [unconsumed, hscript, hnext, Nat.le_refl]
  | refused _ _ _ hsame =>
    subst hsame
    exact ⟨h, id, Nat.le_refl _, fun hr => by cases hr⟩

theorem exec_progress (h : SameIntent rules service s) {call : DeploymentCall}
    (hsettles : Settles call) :
    ∃ reply t, s.exec call = some (reply, t) ∧ Progress rules service s call t := by
  cases call with
  | update => exact hsettles.elim
  | remove => exact hsettles.elim
  | reconcile maximumAttempts =>
    obtain ⟨status, after, d', hreturns, houtcome⟩ :=
      reconcile_outcome s.service maximumAttempts s.dataplane
    refine ⟨.reconciled status, ⟨after, d'⟩, ?_, progress_reconcile h hsettles houtcome⟩
    rw [Deployment.exec, hreturns]
    rfl
  | completeDelayed updateId version latestUpdateId latestVersion =>
    exact ⟨_, _, rfl, progress_completeDelayed h (completeDelayed_outcome ..)⟩

/-- Settling calls settle once there are more reconciliations than outcomes
left in the script. -/
theorem settled_run (h : SameIntent rules service s) {calls : List DeploymentCall}
    (hcalls : ∀ call ∈ calls, Settles call)
    (henough : Settled rules s ∨ s.dataplane.unconsumed.length < calls.countP reconciles) :
    ∃ es t, run exec s calls = some (es, t) ∧ SameIntent rules service t ∧ Settled rules t := by
  induction calls generalizing s with
  | nil =>
    refine ⟨[], s, rfl, h, ?_⟩
    rcases henough with hs | hnone
    · exact hs
    · exact absurd hnone (Nat.not_lt_zero _)
  | cons call rest ih =>
    obtain ⟨reply, t, hexec, hprogress⟩ := exec_progress h (hcalls call List.mem_cons_self)
    have hrest : Settled rules t ∨ t.dataplane.unconsumed.length < rest.countP reconciles := by
      rcases henough with hs | hmany
      · exact Or.inl (hprogress.keeps hs)
      · by_cases hcall : reconciles call = true
        · rw [List.countP_cons_of_pos hcall] at hmany
          rcases hprogress.settles hcall with hs | hless
          · exact Or.inl hs
          · exact Or.inr (by omega)
        · rw [List.countP_cons_of_neg hcall] at hmany
          exact Or.inr (Nat.lt_of_le_of_lt hprogress.shorter hmany)
    obtain ⟨es, u, hrun, hsame, hsettled⟩ :=
      ih hprogress.intent (fun c hc => hcalls c (List.mem_cons_of_mem _ hc)) hrest
    refine ⟨⟨s, call, reply, t⟩ :: es, u, ?_, hsame, hsettled⟩
    rw [run_cons s call rest hexec, hrun]
    rfl

end Settle

/-- **Eventual convergence.** From any state that intends a ruleset, more
reconciliations than the script has outcomes left end CONVERGED with the
update applied, whatever their budgets, and whatever completions come in
between. -/
theorem deployment_converges (s : Deployment) {rules : RuleSet}
    (hintended : s.service.intended = some rules) {calls : List DeploymentCall}
    (hcalls : ∀ call ∈ calls, Settles call)
    (henough : s.dataplane.unconsumed.length < calls.countP reconciles) :
    ∃ es t, run exec s calls = some (es, t) ∧ t.service.convergence = .converged ∧
      t.service = { s.service with appliedVersion := rules.version } ∧
      t.dataplane.Applied (s.service.latestUpdateId, rules.version) := by
  have hstart : SameIntent rules s.service s := ⟨hintended, rfl⟩
  obtain ⟨es, t, hrun, hintent, hsettled⟩ := settled_run hstart hcalls (Or.inr henough)
  have hsame := hintent.same
  rw [hsettled.acknowledged] at hsame
  refine ⟨es, t, hrun, ?_, hsame, ?_⟩
  · exact RuleService.convergence_eq_converged.mpr
      ⟨rules, hintent.intended, hsettled.acknowledged.symm⟩
  · have happlied := hsettled.applied
    rwa [hsame] at happlied

/-- A service with one accepted update, and a script that fails for good
before it would delay the update. -/
def failingDeployment : Deployment :=
  ⟨((RuleService.new {}).update "stable" basicRules).2,
    .new [{ outcome := .permanentFailure }, { outcome := .delayedSuccess }]⟩

theorem deployment_converges_failing :
    ∃ es t, run exec failingDeployment [.reconcile 3, .reconcile 1,
        .completeDelayed "stale" 1 "stable" 3, .reconcile 1] = some (es, t) ∧
      t.service.convergence = .converged ∧
      t.service = { failingDeployment.service with appliedVersion := basicRules.version } ∧
      t.dataplane.Applied (failingDeployment.service.latestUpdateId, basicRules.version) :=
  deployment_converges failingDeployment rfl (by simp [Settles]) (by decide)

end Deployment

end UpfPolicy
