/-
UpfPolicy.Application.VerdictTheorems — `process` settles verdicts.

  * `WellFormed.process_eq` — with room for the result, `process` applies
    the effect of the verdict and records its decision; `process_of_full`
    is the other case, and `WellFormed.answered` says it of every call.
  * `verdict_congr` — a verdict depends on the rules, the two cited
    entries and the three capacity tests.
  * `WellFormed.judged` — a verdict is a rejection without effect, or a
    `Ruling` for the winner: its effect touches the entries the winner
    cites and needs room where the capacity tests found it, and the
    decision reports the sinks as the effect leaves them.
-/
import UpfPolicy.Application.Verdict
import UpfPolicy.Application.ProcessTheorems

namespace UpfPolicy

open Support

namespace PacketPipeline

/-! ## Applying effects -/

section Apply

variable (p : PacketPipeline) (e : Effect)

@[simp] theorem applyEffect_limits : (p.applyEffect e).limits = p.limits := rfl

@[simp] theorem applyEffect_rules : (p.applyEffect e).rules = p.rules := rfl

@[simp] theorem applyEffect_decisions : (p.applyEffect e).decisions = p.decisions := rfl

@[simp] theorem applyEffect_events : (p.applyEffect e).events = p.events := rfl

@[simp] theorem applyEffect_droppedEvents :
    (p.applyEffect e).droppedEvents = p.droppedEvents := rfl

@[simp] theorem applyEffect_reports :
    (p.applyEffect e).reports = p.reports ++ e.report.toList := rfl

@[simp] theorem applyEffect_n3Sink : (p.applyEffect e).n3Sink = p.n3Sink ++ e.sentTo .n3 := rfl

@[simp] theorem applyEffect_n6Sink : (p.applyEffect e).n6Sink = p.n6Sink ++ e.sentTo .n6 := rfl

theorem applyEffect_sinkOf (side : Interface) :
    (p.applyEffect e).sinkOf side = p.sinkOf side ++ e.sentTo side := by
  cases side <;> rfl

/-- The empty effect. -/
@[simp] theorem applyEffect_empty : p.applyEffect {} = p := by
  simp [applyEffect, Effect.sentTo]

/-- A packet pushed after an effect that sent none. -/
theorem applyEffect_pushSink {e : Effect} (hsent : e.sent = none) (packet : Packet)
    (side : Interface) :
    (p.applyEffect e).pushSink packet side = p.applyEffect { e with sent := some (side, packet) } := by
  cases side <;> simp [applyEffect, pushSink, Effect.sentTo, hsent]

end Apply

/-! ## The stages -/

/-- A plan, as the effect it has when it is committed. -/
def Plan.effect (plan : Plan) : Effect where
  tokens := plan.tokens
  usage := plan.usage.map fun (id, usage) => (id, usage.next)
  report := plan.usage.bind fun (_, usage) =>
    if usage.reportGenerated then some usage.decision.reportId else none

theorem commitPlan_eq (p : PacketPipeline) (plan : Plan) :
    p.commitPlan plan = p.applyEffect plan.effect := by
  obtain ⟨tokens, usage⟩ := plan
  unfold commitPlan
  cases usage with
  | none => cases tokens <;> simp [applyEffect, Plan.effect, Effect.sentTo, write]
  | some counted =>
    obtain ⟨id, usage⟩ := counted
    cases hreport : usage.reportGenerated <;> cases tokens <;>
      simp [applyEffect, Plan.effect, Effect.sentTo, write, hreport]

@[simp] theorem view_sinkFull (p : PacketPipeline) (side : Interface) :
    p.view.sinkFull side = decide ((p.sinkOf side).length ≥ p.limits.sinkPackets.toNat) := rfl

@[simp] theorem view_reportsFull (p : PacketPipeline) :
    p.view.reportsFull = decide (p.reports.length ≥ p.limits.reports.toNat) := rfl

theorem commit_eq (p : PacketPipeline) (d : PacketDecision) (far : Far) (evaluation : FarEvaluation)
    (plan : Plan) :
    p.commit d far evaluation plan = p.settle (p.view.commit d far evaluation plan.effect) := by
  unfold commit View.commit settle
  rw [commitPlan_eq, view_sinkFull]
  by_cases hfull : (evaluation.forwarded &&
      decide ((p.sinkOf evaluation.destination).length ≥ p.limits.sinkPackets.toNat)) = true
  · rw [if_pos hfull, if_pos hfull, applyEffect_empty]
  · rw [if_neg hfull, if_neg hfull]
    by_cases hdrop : far.action = .drop
    · rw [if_pos hdrop, if_pos hdrop]
    · rw [if_neg hdrop, if_neg hdrop]
      dsimp only
      rw [applyEffect_pushSink p rfl]

section Stages

variable {p : PacketPipeline} {packet : Packet} {rules : RuleSet} {winner : Pdr} {far : Far}
  {d : PacketDecision}

theorem accountUrr_eq (haligned : Aligned rules p.runtime) (hrefs : PdrReferences rules winner)
    (plan : Plan) :
    p.accountUrr rules packet winner d far (evaluateFar far packet) plan
      = some (p.settle (p.view.account rules packet winner d far plan.effect)) := by
  unfold accountUrr View.account
  cases hid : winner.urrId with
  | none =>
    have hcited : citedUrr rules winner = none := by rw [citedUrr, hid]; rfl
    rw [hcited]
    exact congrArg some (commit_eq ..)
  | some urrId =>
    obtain ⟨urr, hfind, hcited, hmem, rfl⟩ := hrefs.urr_cited hid
    simp only [hfind, hcited, subscript_urrs haligned hmem]
    rw [show p.view.usage urr.id.value = p.usageOf urr from rfl, view_reportsFull]
    rw [show evaluateUrr urr (p.usageOf urr) packet.payloadBytes.toUInt64 rules.sessionId
      rules.version = p.account rules packet urr from rfl]
    by_cases hover : (p.account rules packet urr).overflow = true
    · rw [if_pos hover, if_pos hover, settle, applyEffect_empty]
    · rw [if_neg hover, if_neg hover]
      by_cases hfull : ((p.account rules packet urr).reportGenerated &&
          decide (p.reports.length ≥ p.limits.reports.toNat)) = true
      · rw [if_pos hfull, if_pos hfull, settle, applyEffect_empty]
      · rw [if_neg hfull, if_neg hfull, commit_eq]
        rfl

theorem resolveFar_eq (haligned : Aligned rules p.runtime) (hrefs : PdrReferences rules winner)
    (hfar : findFar rules winner.farId = some far) (hvalid : (evaluateFar far packet).valid = true)
    (plan : Plan) :
    p.resolveFar rules packet winner d plan
      = some (p.settle (p.view.resolve rules packet winner d far plan.effect)) := by
  unfold resolveFar View.resolve
  simp only [hfar, hvalid, Bool.not_true, Bool.false_eq_true, if_false]
  exact accountUrr_eq haligned hrefs plan

theorem enforceQer_eq (haligned : Aligned rules p.runtime) (hrefs : PdrReferences rules winner)
    (hfar : findFar rules winner.farId = some far)
    (hvalid : (evaluateFar far packet).valid = true) :
    p.enforceQer rules packet winner d
      = some (p.settle (p.view.enforce rules packet winner d far)) := by
  unfold enforceQer View.enforce
  cases hid : winner.qerId with
  | none =>
    have hcited : citedQer rules winner = none := by rw [citedQer, hid]; rfl
    rw [hcited]
    exact resolveFar_eq haligned hrefs hfar hvalid {}
  | some qerId =>
    obtain ⟨qer, hfind, hcited, hmem, rfl⟩ := hrefs.qer_cited hid
    simp only [hfind, hcited, subscript_qers haligned hmem]
    rw [show p.view.tokens qer.id.value = p.tokensOf qer from rfl]
    rw [show evaluateQer qer (p.tokensOf qer) packet.payloadBytes.toUInt64 packet.arrivalTimeMicros
      = p.meter packet qer from rfl]
    cases hallowed : (p.meter packet qer).decision.allowed with
    | true => exact resolveFar_eq haligned hrefs hfar hvalid { tokens := some (_, _) }
    | false =>
      simp only [Bool.not_false, if_true, Bool.false_eq_true, if_false]
      by_cases hfailure : (p.meter packet qer).failure = .rateLimited
      · simp only [hfailure, if_true, settle]
        simp [applyEffect, write, Effect.sentTo]
      · simp only [if_neg hfailure, settle, applyEffect_empty]

end Stages

/-! ## What a verdict can be -/

/-- The decision says of the sinks what the effect does to them. -/
structure Reported (r : Verdict) : Prop where
  present : r.decision.sinkPresent = r.effect.sent.isSome
  transformed : r.decision.transformedPresent = r.effect.sent.isSome
  content : r.decision.transformedPacket = r.effect.sent.map (·.2)
  result : ∀ side, r.decision.terminalResult = forwardedTo side ↔ r.effect.sent.map (·.1) = some side
  observed : r.decision.observabilityDegraded = false

/-- Everything there is to say about the verdict over a packet with a
winner: what it writes, and what it needs room for. -/
structure Ruling (v : View) (rules : RuleSet) (packet : Packet) (winner : Pdr) (r : Verdict) :
    Prop extends Reported r where
  tokens : ∀ w, r.effect.tokens = some w → ∃ qer, citedQer rules winner = some qer ∧ w.1 = qer.id.value
  usage : ∀ w, r.effect.usage = some w → ∃ urr, citedUrr rules winner = some urr ∧ w.1 = urr.id.value
  report : ∀ id, r.effect.report = some id → v.reportsFull = false
  sent : ∀ side out, r.effect.sent = some (side, out) →
    v.sinkFull side = false ∧ Transformed packet side out
  formed : r.decision.terminalResult ≠ .malformedPacket

/-- What holds between the stages of the decision and the effect planned so
far. -/
structure Pending (v : View) (rules : RuleSet) (winner : Pdr) (d : PacketDecision)
    (planned : Effect) : Prop where
  tokens : ∀ w, planned.tokens = some w → ∃ qer, citedQer rules winner = some qer ∧ w.1 = qer.id.value
  usage : ∀ w, planned.usage = some w → ∃ urr, citedUrr rules winner = some urr ∧ w.1 = urr.id.value
  report : ∀ id, planned.report = some id → v.reportsFull = false
  unsent : planned.sent = none
  present : d.sinkPresent = false
  transformed : d.transformedPresent = false
  content : d.transformedPacket = none
  observed : d.observabilityDegraded = false

theorem ne_forwardedTo {result : TerminalResult} (h : result.committed = false) (side : Interface) :
    result ≠ forwardedTo side := by
  rintro rfl
  cases side <;> cases h

section Rulings

variable {v : View} {rules : RuleSet} {packet : Packet} {winner : Pdr} {far : Far}
  {d : PacketDecision} {planned : Effect}

/-- A plan may be abandoned at any stage. -/
theorem Pending.abandon (h : Pending v rules winner d planned) : Pending v rules winner d {} :=
  { h with
    tokens := fun _ hw => (by cases hw)
    usage := fun _ hw => (by cases hw)
    report := fun _ hw => (by cases hw)
    unsent := rfl }

/-- A verdict that sends nothing. -/
theorem Pending.ruling (h : Pending v rules winner d planned) {result : TerminalResult}
    (hkept : ∀ side, result ≠ forwardedTo side) (hformed : result ≠ .malformedPacket) :
    Ruling v rules packet winner ⟨{ d with terminalResult := result }, planned⟩ where
  tokens := h.tokens
  usage := h.usage
  report := h.report
  sent side out hsent := by rw [h.unsent] at hsent; cases hsent
  present := by rw [h.unsent]; exact h.present
  transformed := by rw [h.unsent]; exact h.transformed
  content := by rw [h.unsent]; exact h.content
  result side := by
    rw [h.unsent]
    exact ⟨fun hresult => absurd hresult (hkept side), fun hside => by cases hside⟩
  observed := h.observed
  formed := hformed

theorem commit_ruling (h : Pending v rules winner d planned) (hfits : FarFits winner far)
    (hingress : winner.sourceInterface = packet.ingress) :
    Ruling v rules packet winner (v.commit d far (evaluateFar far packet) planned) := by
  have hresolved : FarResolved far packet (evaluateFar far packet) := hfits.resolved hingress
  unfold View.commit
  by_cases hfull : ((evaluateFar far packet).forwarded &&
      v.sinkFull (evaluateFar far packet).destination) = true
  · rw [if_pos hfull]
    exact h.abandon.ruling (ne_forwardedTo rfl) nofun
  · rw [if_neg hfull]
    cases haction : far.action with
    | drop =>
      rw [if_pos rfl]
      exact h.ruling (fun side => by cases side <;> exact nofun) nofun
    | forward =>
      rw [if_neg nofun]
      have hout := hfits.transformed hingress haction
      refine ⟨⟨rfl, rfl, rfl, ?_, h.observed⟩, h.tokens, h.usage, h.report, ?_, ?_⟩
      · intro side
        cases (evaluateFar far packet).destination <;> cases side <;> simp [forwardedTo]
      · intro side out hsent
        cases hsent
        refine ⟨?_, hout⟩
        simpa [hresolved.forwarded, haction] using hfull
      · cases (evaluateFar far packet).destination <;> simp

theorem account_ruling (h : Pending v rules winner d planned) (hfits : FarFits winner far)
    (hingress : winner.sourceInterface = packet.ingress) :
    Ruling v rules packet winner (v.account rules packet winner d far planned) := by
  unfold View.account
  cases hcited : citedUrr rules winner with
  | none => exact commit_ruling h hfits hingress
  | some urr =>
    dsimp only
    generalize evaluateUrr urr (v.usage urr.id.value) packet.payloadBytes.toUInt64 rules.sessionId
      rules.version = usage
    have hd : Pending v rules winner { d with urr := usage.decision } planned := { h with }
    by_cases hover : usage.overflow = true
    · rw [if_pos hover]
      exact hd.abandon.ruling (ne_forwardedTo rfl) nofun
    · rw [if_neg hover]
      by_cases hfull : (usage.reportGenerated && v.reportsFull) = true
      · rw [if_pos hfull]
        exact hd.abandon.ruling (ne_forwardedTo rfl) nofun
      · rw [if_neg hfull]
        refine commit_ruling ?_ hfits hingress
        refine { hd with
          usage := fun w hw => ?_
          report := fun id hid => ?_ }
        · cases hw
          exact ⟨urr, hcited, rfl⟩
        · cases hreport : usage.reportGenerated with
          | false => simp [View.countedEffect, hreport] at hid
          | true => simpa [hreport] using hfull

theorem enforce_ruling (h : Pending v rules winner d {}) (hfits : FarFits winner far)
    (hingress : winner.sourceInterface = packet.ingress) :
    Ruling v rules packet winner (v.enforce rules packet winner d far) := by
  unfold View.enforce
  cases hcited : citedQer rules winner with
  | none => exact account_ruling { h with } hfits hingress
  | some qer =>
    have hplanned : ∀ (decision : QerDecision) (next : TokenBucketState),
        Pending v rules winner { d with qer := decision } { tokens := some (qer.id.value, next) } := by
      intro decision next
      exact { h with tokens := fun w hw => (by cases hw; exact ⟨qer, hcited, rfl⟩) }
    dsimp only
    have hfailure := evaluateQer_failure qer (v.tokens qer.id.value) packet.payloadBytes.toUInt64
      packet.arrivalTimeMicros
    revert hfailure
    generalize evaluateQer qer (v.tokens qer.id.value) packet.payloadBytes.toUInt64
      packet.arrivalTimeMicros = evaluation
    intro hfailure
    cases hallowed : evaluation.decision.allowed with
    | true =>
      rw [if_pos rfl]
      exact account_ruling { hplanned evaluation.decision evaluation.next with } hfits hingress
    | false =>
      rw [if_neg Bool.false_ne_true]
      have hkept : ∀ side, evaluation.failure ≠ forwardedTo side := by
        refine ne_forwardedTo ?_
        rcases hfailure hallowed with hf | hf | hf <;> rw [hf] <;> rfl
      have hformed : evaluation.failure ≠ .malformedPacket := by
        rcases hfailure hallowed with hf | hf | hf <;> rw [hf] <;> exact nofun
      have hpending := hplanned evaluation.decision evaluation.next
      by_cases hlimited : evaluation.failure = .rateLimited
      · rw [if_pos hlimited]
        exact hpending.ruling hkept hformed
      · rw [if_neg hlimited]
        exact hpending.abandon.ruling hkept hformed

end Rulings

/-! ## What a verdict depends on -/

/-- Two views that agree on the entries the winner cites and on the three
capacities. -/
structure ViewAgrees (v v' : View) (rules : RuleSet) (winner : Pdr) : Prop where
  tokens : ∀ qer, citedQer rules winner = some qer → v'.tokens qer.id.value = v.tokens qer.id.value
  usage : ∀ urr, citedUrr rules winner = some urr → v'.usage urr.id.value = v.usage urr.id.value
  reportsFull : v'.reportsFull = v.reportsFull
  sinkFull : v'.sinkFull = v.sinkFull

section Congruence

variable {v v' : View} {rules : RuleSet} {packet : Packet} {winner : Pdr} {far : Far}
  {d : PacketDecision} {planned : Effect}

theorem commit_congr (h : ViewAgrees v v' rules winner) (evaluation : FarEvaluation) :
    v'.commit d far evaluation planned = v.commit d far evaluation planned := by
  unfold View.commit
  rw [h.sinkFull]

theorem account_congr (h : ViewAgrees v v' rules winner) :
    v'.account rules packet winner d far planned = v.account rules packet winner d far planned := by
  unfold View.account
  cases hcited : citedUrr rules winner with
  | none => exact commit_congr h _
  | some urr =>
    dsimp only
    rw [h.usage urr hcited, h.reportsFull, commit_congr h]

theorem enforce_congr (h : ViewAgrees v v' rules winner) :
    v'.enforce rules packet winner d far = v.enforce rules packet winner d far := by
  unfold View.enforce View.resolve
  cases hcited : citedQer rules winner with
  | none => exact account_congr h
  | some qer =>
    dsimp only
    rw [h.tokens qer hcited, account_congr h]

/-- **Only the rules, the cited entries and the capacities decide.** -/
theorem verdict_congr [InetText] {p p' : PacketPipeline} {runId scenarioId : String}
    (hrules : p'.rules = p.rules)
    (hview : ∀ rules winner, p.triedWinner packet = some (rules, winner) →
      ViewAgrees p.view p'.view rules winner) :
    p'.verdict packet runId scenarioId = p.verdict packet runId scenarioId := by
  have hheader : p'.header packet runId scenarioId = p.header packet runId scenarioId := by
    rw [header, header, hrules]
  unfold verdict triedDecision
  rw [hheader, hrules]
  cases hinstalled : p.rules with
  | none => rfl
  | some rules =>
    dsimp only
    by_cases hbad : (!validPacket packet || packet.sessionId != rules.sessionId) = true
    · rw [if_pos hbad, if_pos hbad]
    · rw [if_neg hbad, if_neg hbad]
      cases hwinner : (selectPdr rules.pdrs packet).2 with
      | none => rfl
      | some winner =>
        have htried : p.triedWinner packet = some (rules, winner) := by
          rw [triedWinner, hinstalled, Option.bind_some, if_neg hbad, hwinner, Option.map_some]
        dsimp only
        cases findFar rules winner.farId with
        | none => rfl
        | some far => exact enforce_congr (hview rules winner htried)

end Congruence

/-! ## The verdict of a pipeline -/

/-- The packet is tried against a winner. -/
structure Tried (p : PacketPipeline) (packet : Packet) (rules : RuleSet) (winner : Pdr) (far : Far) :
    Prop where
  installed : p.rules = some rules
  valid : validPacket packet = true
  session : packet.sessionId = rules.sessionId
  selects : Selects rules packet winner
  resolves : findFar rules winner.farId = some far
  fits : FarFits winner far

/-- What a verdict can be. -/
inductive Judged [InetText] (p : PacketPipeline) (packet : Packet) (r : Verdict) : Prop where
  | untried (hwinner : p.triedWinner packet = none) (heffect : r.effect = {}) (hreported : Reported r)
  | tried {rules : RuleSet} {winner : Pdr} {far : Far}
      (hwinner : p.triedWinner packet = some (rules, winner)) (htried : Tried p packet rules winner far)
      (hruling : Ruling p.view rules packet winner r)

section Verdicts

variable [InetText] {p : PacketPipeline} {packet : Packet} {runId scenarioId : String}

omit [InetText] in
theorem header_reported (p : PacketPipeline) (packet : Packet) (runId scenarioId : String)
    (result : TerminalResult) (hresult : ∀ side, result ≠ forwardedTo side) :
    Reported ⟨{ p.header packet runId scenarioId with terminalResult := result }, {}⟩ := by
  refine ⟨rfl, rfl, rfl, ?_, rfl⟩
  intro side
  exact ⟨fun h => absurd h (hresult side), fun h => by cases h⟩

/-- **A verdict is a rejection without effect, or a ruling for the winner.** -/
theorem WellFormed.judged (h : p.WellFormed) (packet : Packet) (runId scenarioId : String) :
    Judged p packet (p.verdict packet runId scenarioId) := by
  have hheader := header_reported p packet runId scenarioId
  unfold verdict
  cases hrules : p.rules with
  | none =>
    refine .untried ?_ rfl (hheader _ (ne_forwardedTo rfl))
    rw [triedWinner, hrules, Option.bind_none]
  | some rules =>
    have hvalid := h.valid rules hrules
    dsimp only
    by_cases hbad : (!validPacket packet || packet.sessionId != rules.sessionId) = true
    · rw [if_pos hbad]
      refine .untried ?_ rfl (hheader _ (ne_forwardedTo rfl))
      rw [triedWinner, hrules, Option.bind_some, if_pos hbad]
    · rw [if_neg hbad]
      cases hwinner : (selectPdr rules.pdrs packet).2 with
      | none =>
        refine .untried ?_ rfl ?_
        · rw [triedWinner, hrules, Option.bind_some, if_neg hbad, hwinner, Option.map_none]
        · have hnone := hheader .noMatch (ne_forwardedTo rfl)
          exact { hnone with }
      | some winner =>
        have hsel := (hvalid.selectPdr_winner packet winner).mp hwinner
        obtain ⟨far, hfar, hfits⟩ := (validatePdr_ok (hvalid.pdrOk winner hsel.mem)).far
        have hok : validPacket packet = true ∧ packet.sessionId = rules.sessionId := by
          simpa using hbad
        dsimp only
        rw [hfar]
        refine .tried ?_ ⟨hrules, hok.1, hok.2, hsel, hfar, hfits⟩
          (enforce_ruling ?_ hfits hsel.matched.ingress)
        · rw [triedWinner, hrules, Option.bind_some, if_neg hbad, hwinner, Option.map_some]
        · exact ⟨nofun, nofun, nofun, rfl, rfl, rfl, rfl, rfl⟩

end Verdicts

/-! ## The call -/

section Call

variable [InetText] {p : PacketPipeline} {packet : Packet} {runId scenarioId : String}

/-- Without room for the result nothing is decided and nothing recorded. -/
theorem process_of_full (hfull : p.limits.results.toNat ≤ p.decisions.length) :
    p.process packet runId scenarioId
      = some ({ p.header packet runId scenarioId with terminalResult := .capacityError }, p) := by
  unfold process
  rw [if_pos hfull]

/-- **With room for the result, `process` settles the verdict.** -/
theorem WellFormed.process_eq (h : p.WellFormed)
    (hroom : p.decisions.length < p.limits.results.toNat) :
    p.process packet runId scenarioId = some (p.settle (p.verdict packet runId scenarioId)) := by
  unfold process verdict
  rw [if_neg (Nat.not_le.mpr hroom)]
  cases hrules : p.rules with
  | none =>
    dsimp only
    rw [settle, applyEffect_empty]
  | some rules =>
    have hvalid := h.valid rules hrules
    dsimp only
    by_cases hbad : (!validPacket packet || packet.sessionId != rules.sessionId) = true
    · rw [if_pos hbad, if_pos hbad, settle, applyEffect_empty]
    · rw [if_neg hbad, if_neg hbad]
      cases hwinner : (selectPdr rules.pdrs packet).2 with
      | none =>
        dsimp only
        rw [settle, applyEffect_empty]
        rfl
      | some winner =>
        have hsel := (hvalid.selectPdr_winner packet winner).mp hwinner
        obtain ⟨far, hfar, hresolved⟩ := hvalid.winner_far hsel
        dsimp only
        rw [hfar]
        exact enforceQer_eq (h.aligned_of_rules hrules)
          (validatePdr_ok (hvalid.pdrOk winner hsel.mem)) hfar hresolved.valid

/-- Everything one call does. -/
inductive Answered (p : PacketPipeline) (call : PipelineCall) (reply : PipelineReply)
    (p' : PacketPipeline) : Prop where
  | installed {rules : RuleSet} {result : Except String Unit} (hcall : call = .install rules)
      (hreply : reply = .installed result) (houtcome : InstallOutcome p rules result p')
  | full {packet : Packet} {runId scenarioId : String}
      (hcall : call = .process packet runId scenarioId)
      (hfull : p.limits.results.toNat ≤ p.decisions.length)
      (hreply : reply
        = .decided { p.header packet runId scenarioId with terminalResult := .capacityError })
      (hafter : p' = p)
  | settled {packet : Packet} {runId scenarioId : String}
      (hcall : call = .process packet runId scenarioId)
      (hroom : p.decisions.length < p.limits.results.toNat)
      (hreply : reply = .decided (p.settle (p.verdict packet runId scenarioId)).1)
      (hafter : p' = (p.settle (p.verdict packet runId scenarioId)).2)

/-- **A call installs, is turned away, or settles a verdict.** -/
theorem WellFormed.answered (h : p.WellFormed) {call : PipelineCall} {reply : PipelineReply}
    {p' : PacketPipeline} (hexec : p.exec call = some (reply, p')) :
    Answered p call reply p' := by
  cases call with
  | install rules =>
    rw [exec_install] at hexec
    cases hexec
    exact .installed rfl rfl (h.install_outcome rules)
  | process packet runId scenarioId =>
    by_cases hfull : p.limits.results.toNat ≤ p.decisions.length
    · rw [exec_process (process_of_full hfull)] at hexec
      cases hexec
      exact .full rfl hfull rfl rfl
    · have hroom := Nat.not_le.mp hfull
      rw [exec_process (h.process_eq hroom)] at hexec
      cases hexec
      exact .settled rfl hroom rfl rfl

end Call

end PacketPipeline

end UpfPolicy
