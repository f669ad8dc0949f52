/-
UpfPolicy.Application.CapacityTheorems — capacities show when they matter.

A pipeline reads its limits in six tests. One that fails leaves a mark in
the reply: a `CAPACITY_ERROR`, a degraded decision, or the capacity error
of an install (`showsCapacity`). So a run without such a reply does not
depend on its limits: with more room it is the same run
(`capacity_invisible`).
-/
import UpfPolicy.Application.ObservationTheorems

namespace UpfPolicy

open Support

/-- Limits with at least as much room for everything a pipeline holds. -/
structure CapacityLimits.Within (limits limits' : CapacityLimits) : Prop where
  rulesPerType : limits.rulesPerType.toNat ≤ limits'.rulesPerType.toNat
  results : limits.results.toNat ≤ limits'.results.toNat
  reports : limits.reports.toNat ≤ limits'.reports.toNat
  sinkPackets : limits.sinkPackets.toNat ≤ limits'.sinkPackets.toNat
  events : limits.events.toNat ≤ limits'.events.toNat

/-- The replies that show a used up capacity. -/
def PipelineReply.showsCapacity : PipelineReply → Bool
  | .installed (.ok _) => false
  | .installed (.error e) => decide (e = "rule capacity exceeded")
  | .decided d => decide (d.terminalResult = .capacityError) || d.observabilityDegraded

theorem PipelineReply.decided_quiet {d : PacketDecision} :
    (PipelineReply.decided d).showsCapacity = false
      ↔ d.terminalResult ≠ .capacityError ∧ d.observabilityDegraded ≠ true := by
  simp [showsCapacity]

section Limits

variable {limits limits' : CapacityLimits}

/-- With more room for rules, validation changes its capacity error only. -/
theorem validateRuleSet_within (h : limits.Within limits') {rules : RuleSet}
    (hquiet : validateRuleSet rules limits ≠ .error "rule capacity exceeded") :
    validateRuleSet rules limits' = validateRuleSet rules limits := by
  have hmore := h.rulesPerType
  unfold validateRuleSet at hquiet ⊢
  by_cases hversion : rules.sessionId.isEmpty ∨ rules.version = 0
  · rw [if_pos hversion, if_pos hversion]
  · rw [if_neg hversion] at hquiet
    rw [if_neg hversion, if_neg hversion]
    split at hquiet
    · exact absurd rfl hquiet
    · next hroom =>
      rw [if_neg hroom, if_neg (by omega)]

end Limits

/-! ## Views with more room -/

/-- The same entries, and nothing full that was not. -/
structure View.Within (v v' : View) : Prop where
  tokens : v'.tokens = v.tokens
  usage : v'.usage = v.usage
  reportsFull : v'.reportsFull = true → v.reportsFull = true
  sinkFull : ∀ side, v'.sinkFull side = true → v.sinkFull side = true

section Views

variable {v v' : View} {rules : RuleSet} {packet : Packet} {winner : Pdr} {far : Far}

/-- **Each stage**: the verdict is the same or ends for want of room. -/
theorem View.Within.commit (h : View.Within v v') (d : PacketDecision) (e : FarEvaluation)
    (planned : Effect) (hquiet : (v.commit d far e planned).decision.terminalResult ≠ .capacityError) :
    v'.commit d far e planned = v.commit d far e planned := by
  unfold View.commit at hquiet ⊢
  split at hquiet
  · exact absurd rfl hquiet
  · next hroom =>
    have hroom' : ¬ (e.forwarded && v'.sinkFull e.destination) = true := by
      rw [Bool.and_eq_true] at hroom ⊢
      exact fun hfull => hroom ⟨hfull.1, h.sinkFull _ hfull.2⟩
    rw [if_neg hroom, if_neg hroom']

theorem View.Within.account (h : View.Within v v') (d : PacketDecision) (planned : Effect)
    (hquiet : (v.account rules packet winner d far planned).decision.terminalResult
      ≠ .capacityError) :
    v'.account rules packet winner d far planned = v.account rules packet winner d far planned := by
  unfold View.account at hquiet ⊢
  rw [h.usage]
  cases hurr : citedUrr rules winner with
  | none =>
    rw [hurr] at hquiet
    exact h.commit _ _ _ hquiet
  | some urr =>
    rw [hurr] at hquiet
    dsimp only at hquiet ⊢
    split at hquiet
    · next hoverflow => rw [if_pos hoverflow, if_pos hoverflow]
    · next hoverflow =>
      rw [if_neg hoverflow, if_neg hoverflow]
      split at hquiet
      · exact absurd rfl hquiet
      · next hroom =>
        rw [if_neg hroom, if_neg, h.commit _ _ _ hquiet]
        rw [Bool.and_eq_true] at hroom ⊢
        exact fun hfull => hroom ⟨hfull.1, h.reportsFull hfull.2⟩

theorem View.Within.enforce (h : View.Within v v') (d : PacketDecision)
    (hquiet : (v.enforce rules packet winner d far).decision.terminalResult ≠ .capacityError) :
    v'.enforce rules packet winner d far = v.enforce rules packet winner d far := by
  unfold View.enforce View.resolve at hquiet ⊢
  rw [h.tokens]
  cases hqer : citedQer rules winner with
  | none =>
    rw [hqer] at hquiet
    exact h.account _ _ hquiet
  | some qer =>
    rw [hqer] at hquiet
    dsimp only at hquiet ⊢
    split at hquiet
    · next hallowed =>
      rw [if_pos hallowed, if_pos hallowed]
      exact h.account _ _ hquiet
    · next hrefused => rw [if_neg hrefused, if_neg hrefused]

end Views

namespace PacketPipeline

/-! ## Pipelines with more room -/

/-- The pipeline with other limits. -/
def withLimits (p : PacketPipeline) (limits : CapacityLimits) : PacketPipeline := { p with limits }

section Step

variable {limits' : CapacityLimits} {p : PacketPipeline}

theorem view_withLimits (h : p.limits.Within limits') :
    View.Within p.view (p.withLimits limits').view := by
  refine ⟨rfl, rfl, ?_, ?_⟩
  · simp only [view, decide_eq_true_eq]
    exact h.reports.trans
  · intro side
    have hsink : (p.withLimits limits').sinkOf side = p.sinkOf side := by cases side <;> rfl
    simp only [view, decide_eq_true_eq, hsink]
    exact h.sinkPackets.trans

/-- **One verdict** with more room. -/
theorem verdict_within [InetText] {p' : PacketPipeline} (hrules : p'.rules = p.rules)
    (h : View.Within p.view p'.view) {packet : Packet} {runId scenarioId : String}
    (hquiet : (p.verdict packet runId scenarioId).decision.terminalResult ≠ .capacityError) :
    p'.verdict packet runId scenarioId = p.verdict packet runId scenarioId := by
  have hheader : p'.header packet runId scenarioId = p.header packet runId scenarioId := by
    rw [header, header, hrules]
  unfold verdict triedDecision at hquiet ⊢
  rw [hheader, hrules]
  cases hinstalled : p.rules with
  | none => rfl
  | some rules =>
    rw [hinstalled] at hquiet
    dsimp only at hquiet ⊢
    split at hquiet
    · next hbad => rw [if_pos hbad, if_pos hbad]
    · next htried =>
      rw [if_neg htried, if_neg htried]
      cases hwinner : (selectPdr rules.pdrs packet).2 with
      | none => rfl
      | some winner =>
        rw [hwinner] at hquiet
        dsimp only at hquiet ⊢
        cases hfar : findFar rules winner.farId with
        | none => rfl
        | some far =>
          rw [hfar] at hquiet
          exact h.enforce _ hquiet

/-- Settling one verdict with more room for events. -/
theorem settle_withLimits (h : p.limits.Within limits') (r : Verdict)
    (hquiet : (p.settle r).1.observabilityDegraded ≠ true) :
    (p.withLimits limits').settle r = ((p.settle r).1, (p.settle r).2.withLimits limits') := by
  have hmore := h.events
  unfold settle retain at hquiet ⊢
  split at hquiet
  · next hroom =>
    have hroom' : ((p.withLimits limits').applyEffect r.effect).events.length
        < ((p.withLimits limits').applyEffect r.effect).limits.events.toNat :=
      Nat.lt_of_lt_of_le hroom hmore
    rw [if_pos hroom, if_pos hroom']
    rfl
  · exact absurd rfl hquiet

/-- A call that processes a packet settles its verdict. -/
theorem WellFormed.exec_settle [InetText] (h : p.WellFormed)
    (hroom : p.decisions.length < p.limits.results.toNat) {packet : Packet}
    {runId scenarioId : String} :
    p.exec (.process packet runId scenarioId)
      = some (.decided (p.settle (p.verdict packet runId scenarioId)).1,
        (p.settle (p.verdict packet runId scenarioId)).2) :=
  exec_process (h.process_eq hroom)

/-- **One call** with more room: the same reply, unless that reply shows a
used up capacity. -/
theorem exec_withLimits [InetText] (h : p.limits.Within limits') (hwf : p.WellFormed)
    (hwf' : (p.withLimits limits').WellFormed) {call : PipelineCall} {reply : PipelineReply}
    {q : PacketPipeline} (hexec : p.exec call = some (reply, q)) (hquiet : reply.showsCapacity = false) :
    (p.withLimits limits').exec call = some (reply, q.withLimits limits') := by
  cases call with
  | install rules =>
    rw [exec_install] at hexec ⊢
    cases hexec
    have hsame : validateRuleSet rules limits' = validateRuleSet rules p.limits := by
      refine validateRuleSet_within h fun hcapacity => ?_
      unfold install at hquiet
      rw [hcapacity] at hquiet
      cases hquiet
    unfold install
    rw [show (p.withLimits limits').limits = limits' from rfl, hsame]
    cases validateRuleSet rules p.limits with
    | error e => rfl
    | ok u => rfl
  | process packet runId scenarioId =>
    by_cases hfull : p.limits.results.toNat ≤ p.decisions.length
    · rw [exec_process (process_of_full hfull)] at hexec
      cases hexec
      exact absurd rfl (PipelineReply.decided_quiet.mp hquiet).1
    · have hroom := Nat.not_le.mp hfull
      have hroom' : (p.withLimits limits').decisions.length
          < (p.withLimits limits').limits.results.toNat := Nat.lt_of_lt_of_le hroom h.results
      rw [hwf.exec_settle hroom] at hexec
      cases hexec
      obtain ⟨hresult, hdegraded⟩ := PipelineReply.decided_quiet.mp hquiet
      have hverdict : (p.verdict packet runId scenarioId).decision.terminalResult
          ≠ .capacityError := by
        rw [PacketPipeline.settle, retain_fst] at hresult
        exact hresult
      have hrules : (p.withLimits limits').rules = p.rules := rfl
      rw [hwf'.exec_settle hroom', verdict_within hrules (view_withLimits h) hverdict,
        settle_withLimits h _ hdegraded]

end Step

/-! ## Runs -/

/-- A recorded call with other limits. -/
def eventWithLimits (limits : CapacityLimits) (e : PipelineEvent) : PipelineEvent :=
  { e with before := e.before.withLimits limits, after := e.after.withLimits limits }

section Runs

variable [InetText] {limits limits' : CapacityLimits}

theorem run_withLimits {calls : List PipelineCall} {p q : PacketPipeline} {es : List PipelineEvent}
    (h : p.limits.Within limits') (hwf : p.WellFormed) (hwf' : (p.withLimits limits').WellFormed)
    (hrun : run PacketPipeline.exec p calls = some (es, q))
    (hquiet : ∀ e ∈ es, e.output.showsCapacity = false) :
    run PacketPipeline.exec (p.withLimits limits') calls
      = some (es.map (eventWithLimits limits'), q.withLimits limits') := by
  induction calls generalizing p es with
  | nil =>
    cases hrun
    rfl
  | cons call calls ih =>
    obtain ⟨reply, t, rest, hexec, hrest, rfl⟩ := run_cons_eq_some hrun
    have hexec' := exec_withLimits h hwf hwf' hexec (hquiet _ List.mem_cons_self)
    have hlimits : t.limits = p.limits := (hwf.exec_outcome hexec).limits
    have hlast := ih (hlimits ▸ h) (hwf.exec hexec) (hwf'.exec hexec') hrest fun e he =>
      hquiet e (List.mem_cons_of_mem _ he)
    rw [run, hexec']
    dsimp only
    rw [hlast]
    rfl

/-- **Capacities are invisible until they are used up**: a run none of
whose replies shows a used up capacity is the same run, call by call, under
any limits with more room. -/
theorem capacity_invisible (hmore : limits.Within limits') {calls : List PipelineCall}
    {es : List PipelineEvent} {p : PacketPipeline}
    (hrun : run PacketPipeline.exec (new limits) calls = some (es, p))
    (hquiet : ∀ e ∈ es, e.output.showsCapacity = false) :
    run PacketPipeline.exec (new limits') calls
      = some (es.map (eventWithLimits limits'), p.withLimits limits') :=
  run_withLimits hmore (wellFormed_new limits) (wellFormed_new limits') hrun hquiet

end Runs

/-- Limits with room for one of each. -/
def oneOfEach : CapacityLimits where
  rulesPerType := 1
  results := 1
  reports := 1
  sinkPackets := 1
  events := 1

def singleRun : Option (List PipelineEvent × PacketPipeline) :=
  run (@exec dottedText) (new oneOfEach) [.install basicRules, .process uplinkPacket "r" "s"]

theorem singleRun_isSome : singleRun.isSome = true := by decide +kernel

theorem capacity_invisible_single :
    ∃ es p, es.length = 2 ∧ singleRun = some (es, p) ∧
      run (@exec dottedText) (new {}) [.install basicRules, .process uplinkPacket "r" "s"]
        = some (es.map (eventWithLimits {}), p.withLimits {}) :=
  ⟨_, _, by decide +kernel, (Option.some_get singleRun_isSome).symm,
    @capacity_invisible dottedText oneOfEach {} (by constructor <;> decide) _ _ _
      (Option.some_get singleRun_isSome).symm (by decide +kernel)⟩

end PacketPipeline

end UpfPolicy
