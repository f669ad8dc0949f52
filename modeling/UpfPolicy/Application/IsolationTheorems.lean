/-
UpfPolicy.Application.IsolationTheorems — flows do not influence each other.

A packet writes the entries its winner cites, and its verdict reads no
others. So the packets of one flow can be left out of a run without a trace
in what another flow is answered, if the two cite no common QER and no
common URR. `Shadow` is what remains between the run and the run without
the other flow: the entries of the flow are equal, and every list of the
one is part of that of the other. `flows_isolated` is the result, for runs
of any length with installs in between, as long as the flow itself meets no
used up capacity.
-/
import UpfPolicy.Application.CapacityTheorems
import UpfPolicy.Application.CommuteTheorems

namespace UpfPolicy

open Support

/-! ## Rules of a flow -/

/-- Some QERs and some URRs, by their IDs. -/
structure RuleIds where
  qers : UInt32 → Bool
  urrs : UInt32 → Bool

/-- All other QERs and URRs. -/
def RuleIds.others (ids : RuleIds) : RuleIds where
  qers id := !ids.qers id
  urrs id := !ids.urrs id

/-- The PDR cites no rule but these. -/
def Pdr.cites (pdr : Pdr) (ids : RuleIds) : Bool :=
  pdr.qerId.all (fun id => ids.qers id.value) && pdr.urrId.all (fun id => ids.urrs id.value)

theorem Pdr.cites_qer {pdr : Pdr} {ids : RuleIds} (h : pdr.cites ids = true) {id : QerId}
    (hid : pdr.qerId = some id) : ids.qers id.value = true := by
  rw [cites, hid, Bool.and_eq_true] at h
  exact h.1

theorem Pdr.cites_urr {pdr : Pdr} {ids : RuleIds} (h : pdr.cites ids = true) {id : UrrId}
    (hid : pdr.urrId = some id) : ids.urrs id.value = true := by
  rw [cites, hid, Bool.and_eq_true] at h
  exact h.2

namespace PacketPipeline

/-! ## Two pipelines -/

/-- The second pipeline went without the packets of other flows. -/
structure Shadow (own : RuleIds) (p p' : PacketPipeline) : Prop where
  left : p.WellFormed
  right : p'.WellFormed
  limits : p'.limits = p.limits
  rules : p'.rules = p.rules
  tokens : AgreeOn own.qers p.runtime.qers p'.runtime.qers
  usage : AgreeOn own.urrs p.runtime.urrs p'.runtime.urrs
  qerGenerations : p'.runtime.qerGenerations = p.runtime.qerGenerations
  urrGenerations : p'.runtime.urrGenerations = p.runtime.urrGenerations
  decisions : p'.decisions.Sublist p.decisions
  events : p'.events.Sublist p.events
  reports : p'.reports.Sublist p.reports
  sinks : ∀ side, (p'.sinkOf side).Sublist (p.sinkOf side)

theorem shadow_new (own : RuleIds) (limits : CapacityLimits) :
    Shadow own (new limits) (new limits) where
  left := wellFormed_new limits
  right := wellFormed_new limits
  limits := rfl
  rules := rfl
  tokens := fun _ _ => rfl
  usage := fun _ _ => rfl
  qerGenerations := rfl
  urrGenerations := rfl
  decisions := .refl _
  events := .refl _
  reports := .refl _
  sinks := fun _ => .refl _

section Step

variable {own : RuleIds} {p p' : PacketPipeline}

theorem settle_sinkOf (p : PacketPipeline) (r : Verdict) (side : Interface) :
    (p.settle r).2.sinkOf side = p.sinkOf side ++ r.effect.sentTo side := by
  rw [← applyEffect_sinkOf]
  cases side <;> simp [sinkOf, settle]

theorem events_sublist_settle (p : PacketPipeline) (r : Verdict) :
    p.events.Sublist (p.settle r).2.events := by
  unfold settle retain
  split
  · exact List.sublist_append_left _ _
  · exact .refl _

/-- A decision that is not degraded found room for its event. -/
theorem room_of_quiet {r : Verdict} (hquiet : (p.settle r).1.observabilityDegraded ≠ true) :
    p.events.length < p.limits.events.toNat := by
  rw [settle, retain_fst] at hquiet
  have hfull : (p.applyEffect r.effect).eventsFull = false := by
    simp only [ne_eq, Bool.or_eq_true, not_or, Bool.not_eq_true] at hquiet
    exact hquiet.2
  exact Nat.not_le.mp (of_decide_eq_false hfull)

theorem settle_events {r : Verdict} (hroom : p.events.length < p.limits.events.toNat) :
    (p.settle r).2.events = p.events ++ [terminalResultName r.decision.terminalResult] := by
  have hroom' : (p.applyEffect r.effect).events.length
      < (p.applyEffect r.effect).limits.events.toNat := hroom
  rw [settle, retain_of_room _ _ hroom']
  rfl

/-- **One install on both.** -/
theorem Shadow.install (h : Shadow own p p') (rules : RuleSet) :
    (p'.install rules).1 = (p.install rules).1 ∧
      Shadow own (p.install rules).2 (p'.install rules).2 := by
  refine ⟨install_fst h.limits rules, ?_⟩
  have hout := h.left.install_outcome rules
  have hout' := h.right.install_outcome rules
  have hleft := hout.wellFormed h.left
  have hright := hout'.wellFormed h.right
  cases hout with
  | rejected hinvalid _ hkept =>
    cases hout' with
    | rejected _ _ hkept' =>
      rw [hkept, hkept']
      exact h
    | accepted hvalid' _ _ => exact absurd (h.limits ▸ hvalid') hinvalid
  | accepted hvalid _ hinstalled =>
    cases hout' with
    | rejected hinvalid' _ _ => exact absurd (h.limits ▸ hvalid) hinvalid'
    | accepted _ _ hinstalled' =>
      have htokens : AgreeOn own.qers (p.runtime.qerStore.rebuilt (rules.qers.map Qer.item)).entries
          (p'.runtime.qerStore.rebuilt (rules.qers.map Qer.item)).entries :=
        Store.agreeOn_rebuilt h.tokens h.qerGenerations hvalid.qerIds.qerKeys
      have husage : AgreeOn own.urrs (p.runtime.urrStore.rebuilt (rules.urrs.map Urr.item)).entries
          (p'.runtime.urrStore.rebuilt (rules.urrs.map Urr.item)).entries :=
        Store.agreeOn_rebuilt h.usage h.urrGenerations hvalid.urrIds.urrKeys
      rw [hinstalled] at hleft ⊢
      rw [hinstalled'] at hright ⊢
      exact {
        left := hleft
        right := hright
        limits := h.limits
        rules := rfl
        tokens := htokens
        usage := husage
        qerGenerations := rfl
        urrGenerations := rfl
        decisions := h.decisions
        events := h.events
        reports := h.reports
        sinks := h.sinks }

variable [InetText]

/-- **A packet of another flow** changes the first pipeline only. -/
theorem Shadow.skip (h : Shadow own p p') {packet : Packet} {runId scenarioId : String}
    {reply : PipelineReply} {q : PacketPipeline}
    (hexec : p.exec (.process packet runId scenarioId) = some (reply, q))
    (hcites : (p.triedWinner packet).all (fun tried => tried.2.cites own.others) = true) :
    Shadow own q p' := by
  have hwf := h.left.exec hexec
  cases h.left.answered hexec with
  | installed hcall => cases hcall
  | full _ _ _ hafter =>
    rw [hafter]
    exact h
  | settled hcall _ _ hafter =>
    cases hcall
    have hjudged := h.left.judged packet runId scenarioId
    generalize p.verdict packet runId scenarioId = r at hjudged hafter
    subst hafter
    have htokens : ∀ w, r.effect.tokens = some w → own.qers w.1 = false := by
      intro w hw
      obtain ⟨rules, winner, hwinner, hid⟩ := hjudged.tokens hw
      rw [hwinner] at hcites
      simpa [RuleIds.others] using Pdr.cites_qer hcites hid
    have husage : ∀ w, r.effect.usage = some w → own.urrs w.1 = false := by
      intro w hw
      obtain ⟨rules, winner, hwinner, hid⟩ := hjudged.usage hw
      rw [hwinner] at hcites
      simpa [RuleIds.others] using Pdr.cites_urr hcites hid
    refine ⟨hwf, h.right, ?_, ?_, ?_, ?_, ?_, ?_, ?_, ?_, ?_, ?_⟩
    · simpa [settle] using h.limits
    · simpa [settle] using h.rules
    · simpa [settle, applyEffect] using h.tokens.write_outside htokens
    · simpa [settle, applyEffect] using h.usage.write_outside husage
    · simpa [settle, applyEffect] using h.qerGenerations
    · simpa [settle, applyEffect] using h.urrGenerations
    · rw [settle, retain_decisions]
      exact h.decisions.trans (List.sublist_append_left _ _)
    · exact h.events.trans (events_sublist_settle p r)
    · rw [settle, retain_reports]
      exact h.reports.trans (List.sublist_append_left _ _)
    · intro side
      rw [settle_sinkOf]
      exact (h.sinks side).trans (List.sublist_append_left _ _)

omit [InetText] in
/-- What the second pipeline shows, over the entries of the first one. -/
theorem Shadow.view_within (h : Shadow own p p') :
    View.Within p.view { p' with runtime := p.runtime }.view := by
  refine ⟨rfl, rfl, ?_, ?_⟩
  · simp only [PacketPipeline.view, decide_eq_true_eq, h.limits]
    exact fun hfull => hfull.trans h.reports.length_le
  · intro side
    simp only [PacketPipeline.view, decide_eq_true_eq, h.limits]
    exact fun hfull => hfull.trans (h.sinks side).length_le

/-- **One verdict**: the flow is judged alike on both. -/
theorem Shadow.verdict (h : Shadow own p p') {packet : Packet} {runId scenarioId : String}
    (hcites : (p.triedWinner packet).all (fun tried => tried.2.cites own) = true)
    (hquiet : (p.verdict packet runId scenarioId).decision.terminalResult ≠ .capacityError) :
    p'.verdict packet runId scenarioId = p.verdict packet runId scenarioId := by
  have hslot : { p' with runtime := p.runtime }.rules = p.rules := h.rules
  rw [← verdict_within hslot h.view_within hquiet]
  refine verdict_congr rfl fun rules winner hwinner => ⟨?_, ?_, rfl, ?_⟩
  · intro qer hcited
    rw [triedWinner, hslot, ← triedWinner] at hwinner
    rw [hwinner] at hcites
    have hagree := h.tokens _ (Pdr.cites_qer hcites (citedQer_mem hcited).2)
    exact congrArg (fun entry => entry.getD default) hagree
  · intro urr hcited
    rw [triedWinner, hslot, ← triedWinner] at hwinner
    rw [hwinner] at hcites
    have hagree := h.usage _ (Pdr.cites_urr hcites (citedUrr_mem hcited).2)
    exact congrArg (fun entry => entry.getD default) hagree
  · funext side
    cases side <;> rfl

omit [InetText] in
/-- Settling one verdict on both. -/
theorem Shadow.settle (h : Shadow own p p') {r : Verdict} (hleft : (p.settle r).2.WellFormed)
    (hright : (p'.settle r).2.WellFormed) (hobserved : r.decision.observabilityDegraded = false)
    (hquiet : (p.settle r).1.observabilityDegraded ≠ true) :
    (p'.settle r).1 = (p.settle r).1 ∧ Shadow own (p.settle r).2 (p'.settle r).2 := by
  have hroom := room_of_quiet hquiet
  have hroom' : p'.events.length < p'.limits.events.toNat := by
    rw [h.limits]
    exact Nat.lt_of_le_of_lt h.events.length_le hroom
  have hdecision := settle_decision hroom hobserved
  have hdecision' := settle_decision hroom' hobserved
  refine ⟨hdecision'.trans hdecision.symm, hleft, hright, ?_, ?_, ?_, ?_, ?_, ?_, ?_, ?_, ?_, ?_⟩
  · simpa [PacketPipeline.settle] using h.limits
  · simpa [PacketPipeline.settle] using h.rules
  · simpa [PacketPipeline.settle, applyEffect] using h.tokens.write r.effect.tokens
  · simpa [PacketPipeline.settle, applyEffect] using h.usage.write r.effect.usage
  · simpa [PacketPipeline.settle, applyEffect] using h.qerGenerations
  · simpa [PacketPipeline.settle, applyEffect] using h.urrGenerations
  · have hlast : (p'.settle r).2.decisions = p'.decisions ++ [(p'.settle r).1] :=
      retain_decisions _ _
    have hlast' : (p.settle r).2.decisions = p.decisions ++ [(p.settle r).1] :=
      retain_decisions _ _
    rw [hlast, hlast', hdecision, hdecision']
    exact h.decisions.append (.refl _)
  · rw [settle_events hroom, settle_events hroom']
    exact h.events.append (.refl _)
  · rw [PacketPipeline.settle, PacketPipeline.settle, retain_reports, retain_reports]
    exact h.reports.append (.refl _)
  · intro side
    rw [settle_sinkOf, settle_sinkOf]
    exact (h.sinks side).append (.refl _)

/-- **A packet of the flow** gets the same answer on both. -/
theorem Shadow.process (h : Shadow own p p') {packet : Packet} {runId scenarioId : String}
    {reply : PipelineReply} {q : PacketPipeline}
    (hexec : p.exec (.process packet runId scenarioId) = some (reply, q))
    (hcites : (p.triedWinner packet).all (fun tried => tried.2.cites own) = true)
    (hquiet : reply.showsCapacity = false) :
    ∃ q', p'.exec (.process packet runId scenarioId) = some (reply, q') ∧ Shadow own q q' := by
  have hwf := h.left.exec hexec
  cases h.left.answered hexec with
  | installed hcall => cases hcall
  | full hcall _ hreply =>
    rw [hreply] at hquiet
    exact absurd rfl (PipelineReply.decided_quiet.mp hquiet).1
  | settled hcall hroom hreply hafter =>
    cases hcall
    subst hreply hafter
    obtain ⟨hresult, hdegraded⟩ := PipelineReply.decided_quiet.mp hquiet
    have hverdict : (p.verdict packet runId scenarioId).decision.terminalResult
        ≠ .capacityError := by
      rw [PacketPipeline.settle, retain_fst] at hresult
      exact hresult
    have hroom' : p'.decisions.length < p'.limits.results.toNat := by
      rw [h.limits]
      exact Nat.lt_of_le_of_lt h.decisions.length_le hroom
    have hexec' : p'.exec (.process packet runId scenarioId) = some _ := h.right.exec_settle hroom'
    have hwf' := h.right.exec hexec'
    rw [h.verdict hcites hverdict] at hexec' hwf'
    obtain ⟨hdecision, hshadow⟩ := h.settle hwf hwf'
      (h.left.judged packet runId scenarioId).observed hdegraded
    exact ⟨_, hdecision ▸ hexec', hshadow⟩

end Step

/-! ## Runs -/

/-- The calls that are kept are the installs and the packets of a flow, none
of which meets a used up capacity. The other packets cite other rules. -/
def separate [InetText] (own : RuleIds) (kept : PipelineCall → Bool) (e : PipelineEvent) : Bool :=
  match e.input with
  | .install _ => kept e.input
  | .process packet _ _ =>
    if kept e.input then
      (e.before.triedWinner packet).all (fun tried => tried.2.cites own) && !e.output.showsCapacity
    else (e.before.triedWinner packet).all fun tried => tried.2.cites own.others

section Runs

variable [InetText]

/-- **Flows are isolated.** The packets of other flows can be left out of
any run: the remaining calls are answered alike, the entries of the flow
end up equal, and the lists of the shorter run are parts of the others. -/
theorem flows_isolated (limits : CapacityLimits) {own : RuleIds} {kept : PipelineCall → Bool}
    {calls : List PipelineCall} {es : List PipelineEvent} {p : PacketPipeline}
    (hrun : run PacketPipeline.exec (new limits) calls = some (es, p))
    (hflows : ∀ e ∈ es, separate own kept e = true) :
    ∃ es' p', run PacketPipeline.exec (new limits) (calls.filter kept) = some (es', p') ∧
      journal es' = journal (es.filter fun e => kept e.input) ∧ Shadow own p p' := by
  rw [← map_input_filter hrun]
  refine run_filter ?_ ?_ (shadow_new own limits) hrun hflows
  · intro s s' call reply t hs hexec hfair hkept
    cases call with
    | install rules =>
      rw [exec_install] at hexec
      cases hexec
      obtain ⟨hreply, hafter⟩ := hs.install rules
      exact ⟨_, by rw [exec_install, hreply], hafter⟩
    | process packet runId scenarioId =>
      dsimp only at hkept
      simp only [separate, hkept, if_true, Bool.and_eq_true, Bool.not_eq_true'] at hfair
      exact hs.process hexec hfair.1 hfair.2
  · intro s s' call reply t hs hexec hfair hleft
    cases call with
    | install rules => exact absurd (hleft.symm.trans hfair) Bool.false_ne_true
    | process packet runId scenarioId =>
      dsimp only at hleft
      simp only [separate, hleft, Bool.false_eq_true, if_false] at hfair
      exact hs.skip hexec hfair

end Runs

/-- The flow of the UDP packets, and the installs. -/
def isUdpFlow : PipelineCall → Bool
  | .install _ => true
  | .process packet _ _ => decide (packet.protocol = .udp)

def udpRules : RuleIds where
  qers id := id == 30
  urrs id := id == 40

/-- A UDP packet between two TCP packets. -/
def pairRun : Option (List PipelineEvent × PacketPipeline) :=
  run (@exec dottedText) (new {}) [.install pairRules, .process tcpPacket "r" "s",
    .process uplinkPacket "r" "s", .process tcpPacket "r" "s"]

theorem pairRun_isSome : pairRun.isSome = true := by decide +kernel

theorem flows_isolated_pair :
    ∃ es p es' p', es.length = 4 ∧ es'.length = 2 ∧ pairRun = some (es, p) ∧
      run (@exec dottedText) (new {}) [.install pairRules, .process uplinkPacket "r" "s"]
        = some (es', p') ∧
      journal es' = journal (es.filter fun e => isUdpFlow e.input) ∧ Shadow udpRules p p' := by
  obtain ⟨es', p', hrun, hjournal, hshadow⟩ :=
    @flows_isolated dottedText {} udpRules isUdpFlow _ _ _ (Option.some_get pairRun_isSome).symm
      (by decide +kernel)
  have hlength : (journal es').length = 2 := by
    rw [hjournal]
    decide +kernel
  exact ⟨_, _, es', p', by decide +kernel, by simpa [journal] using hlength,
    (Option.some_get pairRun_isSome).symm, hrun, hjournal, hshadow⟩

end PacketPipeline

end UpfPolicy
