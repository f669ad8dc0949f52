/-
UpfPolicy.Application.ObservationTheorems — what a pipeline retains.

Every decision a pipeline makes goes through `retain`, which appends it and
either appends an event or marks the decision degraded and counts a dropped
event. Two facts follow over whole runs:

  * `retained_bounded` — each retained collection stays within its limit,
    and the events and the dropped events add up to the decisions;
  * `events_never_decide` — two pipelines whose limits differ in `events`
    only answer every sequence of calls alike, apart from the degraded mark.
-/
import UpfPolicy.Application.VerdictTheorems

namespace UpfPolicy

open Support

namespace PacketPipeline

/-! ## Retaining -/

section Retain

variable (p : PacketPipeline) (d : PacketDecision)

/-- There is no room for another event. -/
def eventsFull : Bool := decide (p.limits.events.toNat ≤ p.events.length)

theorem retain_fst :
    (p.retain d).1
      = { d with observabilityDegraded := d.observabilityDegraded || p.eventsFull } := by
  unfold retain eventsFull
  by_cases hroom : p.events.length < p.limits.events.toNat
  · rw [if_pos hroom]
    simp [Nat.not_le.mpr hroom]
  · rw [if_neg hroom]
    simp [Nat.not_lt.mp hroom]

theorem retain_of_room (hroom : p.events.length < p.limits.events.toNat) :
    (p.retain d).2 = { p with
      events := p.events ++ [terminalResultName d.terminalResult]
      decisions := p.decisions ++ [d] } := by
  rw [retain, if_pos hroom]

theorem retain_of_full (hfull : ¬ p.events.length < p.limits.events.toNat) :
    (p.retain d).2 = { p with
      droppedEvents := if p.droppedEvents ≠ uint64Max then p.droppedEvents + 1 else p.droppedEvents
      decisions := p.decisions ++ [{ d with observabilityDegraded := true }] } := by
  rw [retain, if_neg hfull]

theorem retain_decisions : (p.retain d).2.decisions = p.decisions ++ [(p.retain d).1] := by
  unfold retain; split <;> rfl

theorem retain_events_of_room (hroom : p.events.length < p.limits.events.toNat) :
    (p.retain d).2.events.length = p.events.length + 1 ∧
      (p.retain d).2.droppedEvents = p.droppedEvents := by
  unfold retain
  rw [if_pos hroom]
  exact ⟨List.length_append, rfl⟩

theorem retain_events_of_full (hfull : ¬ p.events.length < p.limits.events.toNat)
    (hcount : p.droppedEvents.toNat < 2 ^ 64 - 1) :
    (p.retain d).2.events = p.events ∧
      (p.retain d).2.droppedEvents.toNat = p.droppedEvents.toNat + 1 := by
  unfold retain
  rw [if_neg hfull]
  have hbelow : p.droppedEvents ≠ uint64Max := by
    intro heq
    rw [heq, uint64Max_toNat] at hcount
    exact Nat.lt_irrefl _ hcount
  refine ⟨rfl, ?_⟩
  show (if p.droppedEvents ≠ uint64Max then p.droppedEvents + 1 else p.droppedEvents).toNat = _
  rw [if_pos hbelow, UInt64.toNat_add]
  exact Nat.mod_eq_of_lt (by simp only [UInt64.toNat_one]; omega)

end Retain

/-! ## Bounds -/

/-- Every retained collection is within its limit, and every retained
decision is accounted for. -/
structure Bounded (limits : CapacityLimits) (p : PacketPipeline) : Prop where
  decisions : p.decisions.length ≤ limits.results.toNat
  events : p.events.length ≤ limits.events.toNat
  reports : p.reports.length ≤ limits.reports.toNat
  n3Sink : p.n3Sink.length ≤ limits.sinkPackets.toNat
  n6Sink : p.n6Sink.length ≤ limits.sinkPackets.toNat
  accounted : p.events.length + p.droppedEvents.toNat = p.decisions.length
  degraded : p.decisions.countP (·.observabilityDegraded) = p.droppedEvents.toNat

theorem bounded_new (limits : CapacityLimits) : Bounded limits (new limits) where
  decisions := Nat.zero_le _
  events := Nat.zero_le _
  reports := Nat.zero_le _
  n3Sink := Nat.zero_le _
  n6Sink := Nat.zero_le _
  accounted := rfl
  degraded := rfl

section Bounded

variable {limits : CapacityLimits} {p : PacketPipeline}

/-- Recording a decision not marked yet. -/
theorem Bounded.retain (h : Bounded limits p) (hlimits : p.limits = limits)
    (hroom : p.decisions.length < limits.results.toNat) {d : PacketDecision}
    (hobserved : d.observabilityDegraded = false) : Bounded limits (p.retain d).2 := by
  have hcount : p.droppedEvents.toNat < 2 ^ 64 - 1 := by
    have hmax := limits.results.toNat_lt
    have hsum := h.accounted
    omega
  have hlength : (p.retain d).2.decisions.length = p.decisions.length + 1 := by
    rw [retain_decisions]
    exact List.length_append
  have hmark : (p.retain d).2.decisions.countP (·.observabilityDegraded)
      = p.droppedEvents.toNat + if p.eventsFull then 1 else 0 := by
    rw [retain_decisions, List.countP_append, h.degraded, retain_fst]
    simp [hobserved, List.countP_singleton]
  by_cases hevents : p.events.length < p.limits.events.toNat
  · obtain ⟨hone, hdropped⟩ := retain_events_of_room p d hevents
    have hfull : p.eventsFull = false := decide_eq_false (Nat.not_le.mpr hevents)
    rw [hlimits] at hevents
    refine ⟨by omega, by omega, by simpa using h.reports, by simpa using h.n3Sink,
      by simpa using h.n6Sink, ?_, ?_⟩
    · rw [hone, hdropped, hlength, ← h.accounted]
      omega
    · rw [hmark, hfull, hdropped]
      rfl
  · obtain ⟨hsame, hdropped⟩ := retain_events_of_full p d hevents hcount
    have hfull : p.eventsFull = true := decide_eq_true (Nat.not_lt.mp hevents)
    refine ⟨by omega, by rw [hsame]; exact h.events, by simpa using h.reports,
      by simpa using h.n3Sink, by simpa using h.n6Sink, ?_, ?_⟩
    · rw [hsame, hdropped, hlength, ← h.accounted]
      omega
    · rw [hmark, hfull, hdropped]
      rfl

/-- One more element where there is room for it. -/
theorem length_append_toList {α : Type} {l : List α} {bound : Nat} (h : l.length ≤ bound)
    {x : Option α} (hroom : ∀ a, x = some a → l.length < bound) :
    (l ++ x.toList).length ≤ bound := by
  cases x with
  | none => simpa using h
  | some a =>
    have hlt := hroom a rfl
    simp only [Option.toList_some, List.length_append, List.length_singleton]
    omega

theorem length_sentTo (e : Effect) (side : Interface) :
    (e.sentTo side).length ≤ 1 ∧ ((e.sentTo side).length = 1 → ∃ out, e.sent = some (side, out)) := by
  unfold Effect.sentTo
  cases hsent : e.sent with
  | none => simp
  | some sent =>
    obtain ⟨destination, out⟩ := sent
    dsimp only
    split
    · rename_i hside
      subst hside
      exact ⟨by simp, fun _ => ⟨out, rfl⟩⟩
    · simp

/-- The effect of a ruling finds the room that was tested. -/
theorem Bounded.applyEffect (h : Bounded limits p) (hlimits : p.limits = limits) {e : Effect}
    (hreport : ∀ id, e.report = some id → p.view.reportsFull = false)
    (hsent : ∀ side out, e.sent = some (side, out) → p.view.sinkFull side = false) :
    Bounded limits (p.applyEffect e) := by
  have hsink : ∀ side, (p.sinkOf side).length ≤ limits.sinkPackets.toNat →
      (p.sinkOf side ++ e.sentTo side).length ≤ limits.sinkPackets.toNat := by
    intro side hle
    obtain ⟨hone, hsome⟩ := length_sentTo e side
    rw [List.length_append]
    rcases Nat.lt_or_ge (e.sentTo side).length 1 with hzero | hfull
    · omega
    · obtain ⟨out, hout⟩ := hsome (by omega)
      have hroom := hsent side out hout
      rw [view_sinkFull, hlimits, decide_eq_false_iff_not] at hroom
      omega
  refine ⟨h.decisions, h.events, ?_, hsink .n3 h.n3Sink, hsink .n6 h.n6Sink, h.accounted, h.degraded⟩
  rw [applyEffect_reports]
  refine length_append_toList h.reports fun id hid => ?_
  have hroom := hreport id hid
  rw [view_reportsFull, hlimits, decide_eq_false_iff_not] at hroom
  omega

variable [InetText]

/-- **Every call keeps the bounds.** -/
theorem Bounded.step (h : Bounded limits p) (hwf : p.WellFormed) (hlimits : p.limits = limits)
    {call : PipelineCall} {reply : PipelineReply} {p' : PacketPipeline}
    (hexec : p.exec call = some (reply, p')) : Bounded limits p' := by
  cases hwf.answered hexec with
  | installed _ _ houtcome =>
    cases houtcome with
    | rejected _ _ hkept => subst hkept; exact h
    | accepted _ _ hinstalled => subst hinstalled; exact { h with }
  | full _ _ _ hafter => subst hafter; exact h
  | @settled packet runId scenarioId _ hroom _ hafter =>
    subst hafter
    rw [hlimits] at hroom
    cases hwf.judged packet runId scenarioId with
    | untried _ heffect hreported =>
      rw [settle, heffect, applyEffect_empty]
      exact h.retain hlimits hroom hreported.observed
    | tried _ _ hruling =>
      have hbound := h.applyEffect hlimits hruling.report
        (fun side out hsent => (hruling.sent side out hsent).1)
      exact hbound.retain hlimits hroom hruling.observed

/-- What every call keeps, for the induction over a run. -/
structure WithinLimits (limits : CapacityLimits) (p : PacketPipeline) : Prop where
  wellFormed : p.WellFormed
  limits_eq : p.limits = limits
  bounded : Bounded limits p

theorem WithinLimits.step (h : WithinLimits limits p) {call : PipelineCall} {reply : PipelineReply}
    {p' : PacketPipeline} (hexec : p.exec call = some (reply, p')) : WithinLimits limits p' where
  wellFormed := h.wellFormed.exec hexec
  limits_eq := (h.wellFormed.exec_outcome hexec).limits.trans h.limits_eq
  bounded := h.bounded.step h.wellFormed h.limits_eq hexec

/-- **Every retained collection is bounded and every retained decision is
accounted for**, in every state a sequence of calls reaches. -/
theorem retained_bounded (h : Reachable PacketPipeline.exec (new limits) p) : Bounded limits p := by
  have hstart : WithinLimits limits (new limits) := ⟨wellFormed_new limits, rfl, bounded_new limits⟩
  exact (h.invariant hstart fun _ _ _ _ hs hexec => hs.step hexec).bounded

end Bounded

/-- A pipeline without room for an event, after one packet. -/
theorem retained_bounded_degraded :
    Bounded { events := 0 } ((new { events := 0 }).retain
      { (new {}).header uplinkPacket "r" "s" with terminalResult := .noMatch }).2 :=
  @retained_bounded { events := 0 } _ dottedText ⟨[.process uplinkPacket "r" "s"], _, rfl⟩

/-! ## Two runs with different room for events -/

/-- Two pipelines that decide alike: the same but for the events, and for
the degraded marks of the decisions. -/
structure SamePolicy (p p' : PacketPipeline) : Prop where
  limits : { p.limits with events := p'.limits.events } = p'.limits
  rules : p'.rules = p.rules
  runtime : p'.runtime = p.runtime
  reports : p'.reports = p.reports
  n3Sink : p'.n3Sink = p.n3Sink
  n6Sink : p'.n6Sink = p.n6Sink
  decisions : p'.decisions.length = p.decisions.length

/-- The same reply, but for the degraded mark of a decision. -/
inductive SamePolicyReply : PipelineReply → PipelineReply → Prop where
  | installed (result : Except String Unit) :
      SamePolicyReply (.installed result) (.installed result)
  | decided (d d' : PacketDecision)
      (hsame : { d with observabilityDegraded := d'.observabilityDegraded } = d') :
      SamePolicyReply (.decided d) (.decided d')

theorem samePolicy_new (limits : CapacityLimits) (events events' : UInt64) :
    SamePolicy (new { limits with events }) (new { limits with events := events' }) :=
  ⟨rfl, rfl, rfl, rfl, rfl, rfl, rfl⟩

section Policy

variable {p p' : PacketPipeline}

theorem SamePolicy.view (h : SamePolicy p p') : p'.view = p.view := by
  have hreports : p'.limits.reports = p.limits.reports := by rw [← h.limits]
  have hsinks : p'.limits.sinkPackets = p.limits.sinkPackets := by rw [← h.limits]
  have hsink : ∀ side, p'.sinkOf side = p.sinkOf side := by
    intro side
    cases side
    · exact h.n3Sink
    · exact h.n6Sink
  unfold PacketPipeline.view
  simp only [h.runtime, h.reports, hreports, hsinks, hsink]

/-- Settling one verdict on both. -/
theorem SamePolicy.settle (h : SamePolicy p p') (r : Verdict) :
    SamePolicyReply (.decided (p.settle r).1) (.decided (p'.settle r).1) ∧
      SamePolicy (p.settle r).2 (p'.settle r).2 := by
  refine ⟨.decided _ _ ?_, ?_, ?_, ?_, ?_, ?_, ?_, ?_⟩
  · simp only [PacketPipeline.settle, retain_fst]
  · simpa [PacketPipeline.settle] using h.limits
  · simpa [PacketPipeline.settle] using h.rules
  · simp [PacketPipeline.settle, PacketPipeline.applyEffect, h.runtime]
  · simp [PacketPipeline.settle, h.reports]
  · simp [PacketPipeline.settle, h.n3Sink]
  · simp [PacketPipeline.settle, h.n6Sink]
  · simp [PacketPipeline.settle, retain_decisions, h.decisions]

/-- Installing one ruleset on both. -/
theorem SamePolicy.install (h : SamePolicy p p') (rules : RuleSet) :
    (p'.install rules).1 = (p.install rules).1 ∧
      SamePolicy (p.install rules).2 (p'.install rules).2 := by
  have hvalid : validateRuleSet rules p'.limits = validateRuleSet rules p.limits := by
    rw [← h.limits]
    rfl
  unfold PacketPipeline.install
  rw [hvalid]
  cases validateRuleSet rules p.limits with
  | error e => exact ⟨rfl, h⟩
  | ok u => exact ⟨rfl, { h with rules := rfl, runtime := by rw [h.runtime] }⟩

variable [InetText]

/-- **One call on both**: the same reply, and the same policy after it. -/
theorem SamePolicy.exec (h : SamePolicy p p') (hwf : p.WellFormed) (hwf' : p'.WellFormed)
    {call : PipelineCall} {reply : PipelineReply} {q : PacketPipeline}
    (hexec : p.exec call = some (reply, q)) :
    ∃ reply' q', p'.exec call = some (reply', q') ∧ SamePolicyReply reply reply' ∧
      SamePolicy q q' := by
  have hresults : p'.limits.results = p.limits.results := by rw [← h.limits]
  cases call with
  | install rules =>
    rw [exec_install] at hexec
    cases hexec
    obtain ⟨hreply, hafter⟩ := h.install rules
    refine ⟨_, _, exec_install p' rules, ?_, hafter⟩
    rw [hreply]
    exact .installed _
  | process packet runId scenarioId =>
    by_cases hfull : p.limits.results.toNat ≤ p.decisions.length
    · have hfull' : p'.limits.results.toNat ≤ p'.decisions.length := by
        rw [hresults, h.decisions]
        exact hfull
      rw [exec_process (process_of_full hfull)] at hexec
      cases hexec
      refine ⟨_, _, exec_process (process_of_full hfull'), .decided _ _ ?_, h⟩
      rw [header, header, h.rules]
    · have hroom := Nat.not_le.mp hfull
      have hroom' : p'.decisions.length < p'.limits.results.toNat := by
        rw [hresults, h.decisions]
        exact hroom
      have hverdict : p'.verdict packet runId scenarioId = p.verdict packet runId scenarioId := by
        refine verdict_congr h.rules fun rules winner _ => ?_
        rw [h.view]
        exact ⟨fun _ _ => rfl, fun _ _ => rfl, rfl, rfl⟩
      rw [exec_process (hwf.process_eq hroom)] at hexec
      cases hexec
      obtain ⟨hreply, hafter⟩ := h.settle (p.verdict packet runId scenarioId)
      refine ⟨_, _, exec_process (hwf'.process_eq hroom'), ?_, ?_⟩
      · rw [hverdict]
        exact hreply
      · rw [hverdict]
        exact hafter

/-- Two well-formed pipelines that decide alike. -/
structure SameCourse (p p' : PacketPipeline) : Prop where
  policy : SamePolicy p p'
  left : p.WellFormed
  right : p'.WellFormed

theorem SameCourse.exec (h : SameCourse p p') {call call' : PipelineCall} (hcall : call = call')
    {reply : PipelineReply} {q : PacketPipeline} (hexec : p.exec call = some (reply, q)) :
    ∃ reply' q', p'.exec call' = some (reply', q') ∧ SamePolicyReply reply reply' ∧
      SameCourse q q' := by
  subst hcall
  obtain ⟨reply', q', hexec', hreply, hafter⟩ := h.policy.exec h.left h.right hexec
  exact ⟨reply', q', hexec', hreply, hafter, h.left.exec hexec, h.right.exec hexec'⟩

/-- **Event exhaustion never changes policy**: whatever room for events two
otherwise equal pipelines have, every sequence of calls gets the same
replies from both, apart from the degraded mark of the decisions, and the
runtime state, the reports and the sinks are equal after every call. -/
theorem events_never_decide (limits : CapacityLimits) (events events' : UInt64)
    (calls : List PipelineCall) :
    ∃ es p es' p',
      run PacketPipeline.exec (new { limits with events }) calls = some (es, p) ∧
      run PacketPipeline.exec (new { limits with events := events' }) calls = some (es', p') ∧
      List.Forall₂ (EventsRelated Eq SamePolicyReply SamePolicy) es es' ∧ SamePolicy p p' := by
  have hsame : List.Forall₂ Eq calls calls := List.forall₂_same.mpr fun _ _ => rfl
  have hstart : SameCourse (new { limits with events }) (new { limits with events := events' }) :=
    ⟨samePolicy_new limits events events', wellFormed_new _, wellFormed_new _⟩
  obtain ⟨es, p, hrun⟩ := hstart.left.run_total calls
  obtain ⟨es', p', hrun', hevents, hcourse⟩ :=
    run_simulation (fun _ _ _ _ hs hcall _ _ hexec => hs.exec hcall hexec) hsame hstart hrun
  refine ⟨es, p, es', p', hrun, hrun', hevents.imp fun _ _ he => ?_, hcourse.policy⟩
  exact ⟨he.input, he.output, he.after.policy⟩

end Policy

end PacketPipeline

end UpfPolicy
