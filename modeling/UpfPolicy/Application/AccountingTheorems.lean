/-
UpfPolicy.Application.AccountingTheorems — charging and counting do not
depend on forwarding.

A packet is charged to its QER before its FAR is looked up, and counted
after it whatever the FAR says. So as long as no sink is full, two
pipelines whose rulesets differ in their FARs only charge, count and report
alike (`SameAccounts`), and their decisions differ in what became of the
packet only (`PacketDecision.accounted`). `accounting_ignores_fars` is that
for runs of any length.
-/
import UpfPolicy.Application.CapacityTheorems
import UpfPolicy.Application.ForwardingTheorems

namespace UpfPolicy

open Support

/-- The decision without what became of the packet: whether it was
committed, and nothing else of its FAR and its delivery. -/
def PacketDecision.accounted (d : PacketDecision) : PacketDecision :=
  { d with
    far := {}
    terminalResult := if d.terminalResult.committed then .farDropped else d.terminalResult
    sinkPresent := false
    sink := .n6
    transformedPresent := false
    transformedPacket := none }

/-- The effect without what is sent. -/
def Effect.accounted (e : Effect) : Effect := { e with sent := none }

/-- Two verdicts that charge and count alike. -/
structure Verdict.Alike (r r' : Verdict) : Prop where
  decision : r.decision.accounted = r'.decision.accounted
  effect : r.effect.accounted = r'.effect.accounted

theorem Verdict.Alike.writes {r r' : Verdict} (h : r.Alike r') :
    r.effect.tokens = r'.effect.tokens ∧ r.effect.usage = r'.effect.usage ∧
      r.effect.report = r'.effect.report := by
  have heffect := h.effect
  simp only [Effect.accounted, Effect.mk.injEq, and_true] at heffect
  exact heffect

/-! ## The stages -/

/-- Two views with the same entries and room for reports, and room in
every sink. -/
structure View.Open (v v' : View) : Prop where
  tokens : v'.tokens = v.tokens
  usage : v'.usage = v.usage
  reportsFull : v'.reportsFull = v.reportsFull
  left : ∀ side, v.sinkFull side = false
  right : ∀ side, v'.sinkFull side = false

section Stages

variable {v v' : View} {rules : RuleSet} {packet : Packet} {winner : Pdr} {far far' : Far}
  {d d' : PacketDecision} {planned : Effect}

/-- One result for both. -/
theorem accounted_result (hd : d.accounted = d'.accounted) (result : TerminalResult) :
    { d with terminalResult := result }.accounted
      = { d' with terminalResult := result }.accounted :=
  congrArg (fun a : PacketDecision => { a with
    terminalResult := if result.committed then .farDropped else result }) hd

/-- With room in the sinks every FAR commits what is planned. -/
theorem commit_accounted (hopen : ∀ side, v.sinkFull side = false) (d : PacketDecision) (far : Far)
    (e : FarEvaluation) (hunsent : planned.sent = none) :
    (v.commit d far e planned).decision.accounted
        = { d with terminalResult := .farDropped }.accounted ∧
      (v.commit d far e planned).effect.accounted = planned := by
  have hroom : ¬ (e.forwarded && v.sinkFull e.destination) = true := by simp [hopen]
  have hplanned : planned.accounted = planned := by
    rw [Effect.accounted, ← hunsent]
  unfold View.commit
  rw [if_neg hroom]
  by_cases hdrop : far.action = .drop
  · rw [if_pos hdrop]
    exact ⟨rfl, hplanned⟩
  · rw [if_neg hdrop]
    refine ⟨?_, hplanned⟩
    cases e.destination <;> rfl

theorem commit_alike (h : View.Open v v') (hd : d.accounted = d'.accounted) (e e' : FarEvaluation)
    (hunsent : planned.sent = none) :
    Verdict.Alike (v.commit d far e planned) (v'.commit d' far' e' planned) := by
  obtain ⟨hdecision, heffect⟩ := commit_accounted h.left d far e hunsent
  obtain ⟨hdecision', heffect'⟩ := commit_accounted h.right d' far' e' hunsent
  refine ⟨?_, heffect.trans heffect'.symm⟩
  rw [hdecision, hdecision', accounted_result hd]

theorem account_alike (h : View.Open v v') (hd : d.accounted = d'.accounted) (fars : List Far)
    (hunsent : planned.sent = none) :
    Verdict.Alike (v.account rules packet winner d far planned)
      (v'.account { rules with fars } packet winner d' far' planned) := by
  have hcited : citedUrr { rules with fars } winner = citedUrr rules winner := rfl
  unfold View.account
  rw [hcited, h.usage, h.reportsFull]
  cases citedUrr rules winner with
  | none => exact commit_alike h hd _ _ hunsent
  | some urr =>
    dsimp only
    generalize evaluateUrr urr _ _ _ _ = usage
    have hcounted : { d with urr := usage.decision }.accounted
        = { d' with urr := usage.decision }.accounted :=
      congrArg (fun a : PacketDecision => { a with urr := usage.decision }) hd
    split
    · exact ⟨accounted_result hcounted _, rfl⟩
    · split
      · exact ⟨accounted_result hcounted _, rfl⟩
      · exact commit_alike h hcounted _ _ hunsent

theorem enforce_alike (h : View.Open v v') (hd : d.accounted = d'.accounted) (fars : List Far) :
    Verdict.Alike (v.enforce rules packet winner d far)
      (v'.enforce { rules with fars } packet winner d' far') := by
  have hcited : citedQer { rules with fars } winner = citedQer rules winner := rfl
  unfold View.enforce View.resolve
  rw [hcited, h.tokens]
  cases citedQer rules winner with
  | none =>
    refine account_alike h ?_ fars rfl
    exact congrArg (fun a : PacketDecision =>
      { a with qer := { a.qer with outcome := "NOT_APPLICABLE", allowed := true } }) hd
  | some qer =>
    dsimp only
    generalize evaluateQer qer _ _ _ = evaluation
    have hcharged : { d with qer := evaluation.decision }.accounted
        = { d' with qer := evaluation.decision }.accounted :=
      congrArg (fun a : PacketDecision => { a with qer := evaluation.decision }) hd
    split
    · refine account_alike h ?_ fars rfl
      exact hcharged
    · exact ⟨accounted_result hcharged _, rfl⟩

end Stages

namespace PacketPipeline

/-! ## One call -/

/-- Two pipelines whose rules differ in their FARs only, and that charged,
counted and reported alike. -/
structure SameAccounts (p p' : PacketPipeline) : Prop where
  left : p.WellFormed
  right : p'.WellFormed
  limits : p'.limits = p.limits
  rules : ∃ fars, p'.rules = p.rules.map fun rules => { rules with fars }
  runtime : p'.runtime = p.runtime
  reports : p'.reports = p.reports
  decisions : p'.decisions.length = p.decisions.length
  events : p'.events.length = p.events.length
  droppedEvents : p'.droppedEvents = p.droppedEvents

theorem sameAccounts_new (limits : CapacityLimits) : SameAccounts (new limits) (new limits) :=
  ⟨wellFormed_new limits, wellFormed_new limits, rfl, ⟨[], rfl⟩, rfl, rfl, rfl, rfl, rfl⟩

/-- There is room in both sinks. -/
def SinksOpen (p : PacketPipeline) : Prop :=
  ∀ side, (p.sinkOf side).length < p.limits.sinkPackets.toNat

/-- Two replies that differ in what became of the packet only. -/
inductive SameAccountReply : PipelineReply → PipelineReply → Prop where
  | installed {result result' : Except String Unit} (h : result = .ok () ↔ result' = .ok ()) :
      SameAccountReply (.installed result) (.installed result')
  | decided {d d' : PacketDecision} (h : d.accounted = d'.accounted) :
      SameAccountReply (.decided d) (.decided d')

section Step

variable {p p' : PacketPipeline}

theorem SameAccounts.view (h : SameAccounts p p') (hopen : SinksOpen p) (hopen' : SinksOpen p') :
    View.Open p.view p'.view where
  tokens := by unfold PacketPipeline.view; rw [h.runtime]
  usage := by unfold PacketPipeline.view; rw [h.runtime]
  reportsFull := by rw [view_reportsFull, view_reportsFull, h.reports, h.limits]
  left side := decide_eq_false (Nat.not_le.mpr (hopen side))
  right side := decide_eq_false (Nat.not_le.mpr (hopen' side))

/-- **One verdict** on both. -/
theorem SameAccounts.verdict [InetText] (h : SameAccounts p p') (hopen : SinksOpen p)
    (hopen' : SinksOpen p') (packet : Packet) (runId scenarioId : String) :
    Verdict.Alike (p.verdict packet runId scenarioId) (p'.verdict packet runId scenarioId) := by
  obtain ⟨fars, hfars⟩ := h.rules
  have hheader : p'.header packet runId scenarioId = p.header packet runId scenarioId := by
    rw [header, header, hfars, Option.map_map]
    rfl
  have hvalid := h.left.valid
  have hvalid' := h.right.valid
  unfold PacketPipeline.verdict triedDecision
  rw [hheader, hfars]
  cases hrules : p.rules with
  | none => exact ⟨rfl, rfl⟩
  | some rules =>
    rw [hfars, hrules] at hvalid'
    dsimp only [Option.map_some]
    split
    · exact ⟨rfl, rfl⟩
    · cases hwinner : (selectPdr rules.pdrs packet).2 with
      | none => exact ⟨rfl, rfl⟩
      | some winner =>
        have hv := hvalid rules hrules
        have hv' := hvalid' _ rfl
        have hsel := (hv.selectPdr_winner packet winner).mp hwinner
        have hsel' := (hv'.selectPdr_winner packet winner).mp hwinner
        obtain ⟨far, hfar, -⟩ := hv.winner_far hsel
        obtain ⟨far', hfar', -⟩ := hv'.winner_far hsel'
        dsimp only
        rw [hfar, hfar']
        exact enforce_alike (h.view hopen hopen') rfl fars

/-- Settling any two verdicts keeps the numbers of the events. -/
theorem SameAccounts.recorded (h : SameAccounts p p') (r r' : Verdict) :
    (p'.settle r').2.events.length = (p.settle r).2.events.length ∧
      (p'.settle r').2.droppedEvents = (p.settle r).2.droppedEvents := by
  by_cases hroom : (p.applyEffect r.effect).events.length
      < (p.applyEffect r.effect).limits.events.toNat
  · have hroom' : (p'.applyEffect r'.effect).events.length
        < (p'.applyEffect r'.effect).limits.events.toNat := by simpa [h.limits, h.events] using hroom
    rw [PacketPipeline.settle, PacketPipeline.settle, retain_of_room _ _ hroom, retain_of_room _ _ hroom']
    simp [h.events, h.droppedEvents]
  · have hfull' : ¬ (p'.applyEffect r'.effect).events.length
        < (p'.applyEffect r'.effect).limits.events.toNat := by simpa [h.limits, h.events] using hroom
    rw [PacketPipeline.settle, PacketPipeline.settle, retain_of_full _ _ hroom, retain_of_full _ _ hfull']
    exact ⟨h.events, congrArg (fun count : UInt64 =>
      if count ≠ uint64Max then count + 1 else count) h.droppedEvents⟩

/-- Settling two such verdicts. -/
theorem SameAccounts.settle (h : SameAccounts p p') {r r' : Verdict} (hr : Verdict.Alike r r')
    (hleft : (p.settle r).2.WellFormed) (hright : (p'.settle r').2.WellFormed) :
    (p.settle r).1.accounted = (p'.settle r').1.accounted ∧
      SameAccounts (p.settle r).2 (p'.settle r').2 := by
  obtain ⟨htokens, husage, hreport⟩ := hr.writes
  have hfull : (p'.applyEffect r'.effect).eventsFull = (p.applyEffect r.effect).eventsFull := by
    rw [eventsFull, eventsFull, decide_eq_decide]
    simp [h.limits, h.events]
  obtain ⟨hevents, hdropped⟩ := h.recorded r r'
  refine ⟨?_, hleft, hright, ?_, ?_, ?_, ?_, ?_, ?_, ?_⟩
  · rw [PacketPipeline.settle, PacketPipeline.settle, retain_fst, retain_fst, hfull]
    exact congrArg (fun a : PacketDecision => { a with
      observabilityDegraded := a.observabilityDegraded || (p.applyEffect r.effect).eventsFull })
      hr.decision
  · simpa [PacketPipeline.settle] using h.limits
  · simpa [PacketPipeline.settle] using h.rules
  · simp [PacketPipeline.settle, applyEffect, h.runtime, htokens, husage]
  · simp [PacketPipeline.settle, h.reports, hreport]
  · simp [PacketPipeline.settle, retain_decisions, h.decisions]
  · exact hevents
  · exact hdropped

/-- Installing two rulesets that differ in their FARs only. -/
theorem SameAccounts.install (h : SameAccounts p p') {rules : RuleSet} {fars : List Far}
    (hvalid : RuleSetValid rules p.limits ↔ RuleSetValid { rules with fars } p.limits) :
    ((p.install rules).1 = .ok () ↔ (p'.install { rules with fars }).1 = .ok ()) ∧
      SameAccounts (p.install rules).2 (p'.install { rules with fars }).2 := by
  have hout := h.left.install_outcome rules
  have hout' := h.right.install_outcome { rules with fars }
  have hleft := hout.wellFormed h.left
  have hright := hout'.wellFormed h.right
  rw [← h.limits] at hvalid
  cases hout with
  | rejected hinvalid hresult hkept =>
    cases hout' with
    | rejected _ hresult' hkept' =>
      refine ⟨iff_of_false hresult hresult', ?_⟩
      rw [hkept, hkept']
      exact h
    | accepted hvalid' _ _ => exact absurd (h.limits ▸ hvalid.mpr hvalid') hinvalid
  | accepted hvalid' hresult hinstalled =>
    cases hout' with
    | rejected hinvalid' _ _ => exact absurd (hvalid.mp (h.limits ▸ hvalid')) hinvalid'
    | accepted _ hresult' hinstalled' =>
      refine ⟨iff_of_true hresult hresult', ?_⟩
      rw [hinstalled] at hleft ⊢
      rw [hinstalled'] at hright ⊢
      exact {
        left := hleft
        right := hright
        limits := h.limits
        rules := ⟨fars, rfl⟩
        runtime := by rw [h.runtime]
        reports := h.reports
        decisions := h.decisions
        events := h.events
        droppedEvents := h.droppedEvents }

/-- **One packet on both.** -/
theorem SameAccounts.process [InetText] (h : SameAccounts p p') (hopen : SinksOpen p)
    (hopen' : SinksOpen p') {packet : Packet} {runId scenarioId : String}
    {reply reply' : PipelineReply} {q q' : PacketPipeline}
    (hexec : p.exec (.process packet runId scenarioId) = some (reply, q))
    (hexec' : p'.exec (.process packet runId scenarioId) = some (reply', q')) :
    SameAccountReply reply reply' ∧ SameAccounts q q' := by
  have hwf := h.left.exec hexec
  have hwf' := h.right.exec hexec'
  have hr := h.verdict hopen hopen' packet runId scenarioId
  cases h.left.answered hexec with
  | installed hcall => cases hcall
  | full hcall hfull hreply hafter =>
    cases hcall
    cases h.right.answered hexec' with
    | installed hcall => cases hcall
    | full hcall' _ hreply' hafter' =>
      cases hcall'
      subst hreply hreply' hafter hafter'
      refine ⟨.decided ?_, h⟩
      obtain ⟨fars, hfars⟩ := h.rules
      rw [header, header, hfars, Option.map_map]
      rfl
    | settled _ hroom' _ _ =>
      rw [h.decisions, h.limits] at hroom'
      exact absurd hroom' (Nat.not_lt.mpr hfull)
  | settled hcall hroom hreply hafter =>
    cases hcall
    cases h.right.answered hexec' with
    | installed hcall => cases hcall
    | full _ hfull' _ _ =>
      rw [h.decisions, h.limits] at hfull'
      exact absurd hroom (Nat.not_lt.mpr hfull')
    | settled hcall' _ hreply' hafter' =>
      cases hcall'
      subst hreply hreply' hafter hafter'
      obtain ⟨hdecision, hafter⟩ := h.settle hr hwf hwf'
      exact ⟨.decided hdecision, hafter⟩

end Step

/-! ## Runs -/

/-- The same call, or two installs whose rulesets differ in their FARs and
are both valid or both not. -/
inductive CallButFars (limits : CapacityLimits) : PipelineCall → PipelineCall → Prop where
  | install {rules : RuleSet} {fars : List Far}
      (h : RuleSetValid rules limits ↔ RuleSetValid { rules with fars } limits) :
      CallButFars limits (.install rules) (.install { rules with fars })
  | process {packet : Packet} {runId scenarioId : String} :
      CallButFars limits (.process packet runId scenarioId) (.process packet runId scenarioId)

section Runs

variable [InetText] {limits : CapacityLimits}

/-- **One call on both.** -/
theorem SameAccounts.exec {p p' : PacketPipeline} (h : SameAccounts p p')
    (hlimits : p.limits = limits) {call call' : PipelineCall} (hcall : CallButFars limits call call')
    {reply reply' : PipelineReply} {q q' : PacketPipeline} (hexec : p.exec call = some (reply, q))
    (hexec' : p'.exec call' = some (reply', q')) (hopen : SinksOpen p) (hopen' : SinksOpen p') :
    SameAccountReply reply reply' ∧ SameAccounts q q' := by
  cases hcall with
  | install hvalid =>
    rw [exec_install] at hexec hexec'
    cases hexec
    cases hexec'
    obtain ⟨hresult, hafter⟩ := h.install (hlimits ▸ hvalid)
    exact ⟨.installed hresult, hafter⟩
  | process => exact h.process hopen hopen' hexec hexec'

/-- **Charging and counting ignore the FARs**: two runs whose rulesets
differ in their FARs only make the same decisions up to what became of the
packet, and have the same tokens, counters and reports after every call, as
long as no sink is full. -/
theorem accounting_ignores_fars {calls calls' : List PipelineCall}
    (hcalls : List.Forall₂ (CallButFars limits) calls calls') {es es' : List PipelineEvent}
    {p p' : PacketPipeline} (hrun : run PacketPipeline.exec (new limits) calls = some (es, p))
    (hrun' : run PacketPipeline.exec (new limits) calls' = some (es', p'))
    (hopen : ∀ e ∈ es, SinksOpen e.before) (hopen' : ∀ e ∈ es', SinksOpen e.before) :
    List.Forall₂ (EventsRelated (CallButFars limits) SameAccountReply SameAccounts) es es' := by
  have hevents : List.Forall₂ (EventsRelated (CallButFars limits) SameAccountReply
      fun q q' => SameAccounts q q' ∧ q.limits = limits) es es' := by
    refine run_lockstep ?_ hcalls ⟨sameAccounts_new limits, rfl⟩ hrun hrun' hopen hopen'
    intro q q' call call' reply reply' t t' hs hcall hexec hexec' hleft hright
    obtain ⟨hreply, hafter⟩ := hs.1.exec hs.2 hcall hexec hexec' hleft hright
    exact ⟨hreply, hafter, (hs.1.left.exec_outcome hexec).limits.trans hs.2⟩
  exact hevents.imp fun _ _ he => ⟨he.input, he.output, he.after.1⟩

end Runs

instance (p : PacketPipeline) : Decidable (SinksOpen p) :=
  decidable_of_iff ((p.sinkOf .n3).length < p.limits.sinkPackets.toNat ∧
      (p.sinkOf .n6).length < p.limits.sinkPackets.toNat)
    ⟨fun h side => by cases side <;> simp [h], fun h => ⟨h .n3, h .n6⟩⟩

/-- The FAR of `basicRules` as one that drops. -/
def droppingFars : List Far := [{ id := ⟨20⟩, action := .drop }]

def droppingRun : Option (List PipelineEvent × PacketPipeline) :=
  run (@exec dottedText) (new {})
    [.install { basicRules with fars := droppingFars }, .process uplinkPacket "r" "s"]

theorem droppingRun_isSome : droppingRun.isSome = true := by decide +kernel

theorem accounting_ignores_fars_dropping :
    ∃ es p es' p', es.length = 2 ∧ forwardingRun = some (es, p) ∧ droppingRun = some (es', p') ∧
      p.n6Sink.length = 1 ∧ p'.n6Sink.length = 0 ∧
      List.Forall₂ (EventsRelated (CallButFars {}) SameAccountReply SameAccounts) es es' := by
  refine ⟨_, _, _, _, ?_, (Option.some_get forwardingRun_isSome).symm,
    (Option.some_get droppingRun_isSome).symm, ?_, ?_,
    @accounting_ignores_fars dottedText {} _ _ (.cons (.install ?_) (.cons .process .nil)) _ _ _ _
      (Option.some_get forwardingRun_isSome).symm (Option.some_get droppingRun_isSome).symm ?_ ?_⟩
  · decide +kernel
  · decide +kernel
  · decide +kernel
  · exact iff_of_true ((validateRuleSet_ok_iff _ _).mp (by decide))
      ((validateRuleSet_ok_iff _ _).mp (by decide))
  · decide +kernel
  · decide +kernel

end PacketPipeline

end UpfPolicy
