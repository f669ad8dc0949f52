/-
UpfPolicy.Application.CommuteTheorems — packets of different rules commute.

The effect of a packet stays within the entries its winner cites
(`Ruling`), and a verdict reads no other entries (`verdict_congr`). So two
packets whose winners share no QER and no URR do not see each other, as
long as the capacities have room for both: `process_commutes`.
-/
import UpfPolicy.Application.ObservationTheorems

namespace UpfPolicy

open Support

namespace PacketPipeline

/-! ## Effects commute -/

/-- The same runtime state, and the same reports and sinks up to order. -/
structure SameUpToOrder (p p' : PacketPipeline) : Prop where
  runtime : p.runtime = p'.runtime
  reports : p.reports.Perm p'.reports
  n3Sink : p.n3Sink.Perm p'.n3Sink
  n6Sink : p.n6Sink.Perm p'.n6Sink

/-- The two effects write different entries. -/
structure Effect.Apart (e e' : Effect) : Prop where
  tokens : Support.Apart e.tokens e'.tokens
  usage : Support.Apart e.usage e'.usage

theorem append_perm_swap {α : Type} (l m n : List α) : (l ++ m ++ n).Perm (l ++ n ++ m) := by
  rw [List.append_assoc, List.append_assoc]
  exact List.perm_append_comm.append_left l

theorem settle_comm (p : PacketPipeline) {r r' : Verdict} (h : Effect.Apart r.effect r'.effect) :
    SameUpToOrder ((p.settle r).2.settle r').2 ((p.settle r').2.settle r).2 := by
  refine ⟨?_, ?_, ?_, ?_⟩
  · simp only [settle, applyEffect, retain_runtime, RuntimeState.mk.injEq, and_true]
    exact ⟨write_comm _ h.tokens, write_comm _ h.usage⟩
  · simpa [settle] using append_perm_swap p.reports r.effect.report.toList r'.effect.report.toList
  · simpa [settle] using append_perm_swap p.n3Sink (r.effect.sentTo .n3) (r'.effect.sentTo .n3)
  · simpa [settle] using append_perm_swap p.n6Sink (r.effect.sentTo .n6) (r'.effect.sentTo .n6)

/-! ## Room for two packets -/

/-- Room for two more results, events, reports and packets in each sink. -/
structure RoomForTwo (p : PacketPipeline) : Prop where
  results : p.decisions.length + 2 ≤ p.limits.results.toNat
  events : p.events.length + 2 ≤ p.limits.events.toNat
  reports : p.reports.length + 2 ≤ p.limits.reports.toNat
  n3Sink : p.n3Sink.length + 2 ≤ p.limits.sinkPackets.toNat
  n6Sink : p.n6Sink.length + 2 ≤ p.limits.sinkPackets.toNat

/-- The winners of the two packets, if any, cite no common QER and no
common URR. -/
structure NoCommonRules [InetText] (p : PacketPipeline) (a b : Packet) : Prop where
  qers : ∀ rules rules' winner winner', p.triedWinner a = some (rules, winner) →
    p.triedWinner b = some (rules', winner') →
      ∀ id, winner.qerId = some id → winner'.qerId ≠ some id
  urrs : ∀ rules rules' winner winner', p.triedWinner a = some (rules, winner) →
    p.triedWinner b = some (rules', winner') →
      ∀ id, winner.urrId = some id → winner'.urrId ≠ some id

section Room

variable {p : PacketPipeline} {r : Verdict}

/-- With room for the event, the decision is returned as it is. -/
theorem settle_decision (hroom : p.events.length < p.limits.events.toNat)
    (hobserved : r.decision.observabilityDegraded = false) : (p.settle r).1 = r.decision := by
  have hevents : (p.applyEffect r.effect).eventsFull = false :=
    decide_eq_false (Nat.not_le.mpr hroom)
  rw [settle, retain_fst, hevents, hobserved]
  show { r.decision with observabilityDegraded := false } = r.decision
  rw [← hobserved]

/-- One settled verdict uses up at most one place of each collection. -/
structure OneUsed (p q : PacketPipeline) : Prop where
  limits : q.limits = p.limits
  rules : q.rules = p.rules
  results : q.decisions.length = p.decisions.length + 1
  events : q.events.length ≤ p.events.length + 1
  reports : q.reports.length ≤ p.reports.length + 1
  sinks : ∀ side, (q.sinkOf side).length ≤ (p.sinkOf side).length + 1

theorem settle_oneUsed (p : PacketPipeline) (r : Verdict) : OneUsed p (p.settle r).2 := by
  refine ⟨by simp [settle], by simp [settle], by simp [settle, retain_decisions], ?_, ?_, ?_⟩
  · unfold settle retain
    split <;> simp
  · simp only [settle, retain_reports, applyEffect_reports, List.length_append]
    cases r.effect.report <;> simp
  · intro side
    have hsink : (p.settle r).2.sinkOf side = (p.applyEffect r.effect).sinkOf side := by
      cases side <;> simp [sinkOf, settle]
    rw [hsink, applyEffect_sinkOf, List.length_append]
    have hone := (length_sentTo r.effect side).1
    omega

/-- No capacity is used up before the second packet. -/
theorem RoomForTwo.second (h : RoomForTwo p) {q : PacketPipeline} (hused : OneUsed p q) :
    q.decisions.length < q.limits.results.toNat ∧ q.events.length < q.limits.events.toNat ∧
      q.view.reportsFull = p.view.reportsFull ∧ q.view.sinkFull = p.view.sinkFull := by
  have hresults := h.results
  have hevents := h.events
  have hreports := h.reports
  have hused₁ := hused.results
  have hused₂ := hused.events
  have hused₃ := hused.reports
  refine ⟨by rw [hused.limits]; omega, by rw [hused.limits]; omega, ?_, ?_⟩
  · rw [view_reportsFull, view_reportsFull, hused.limits, decide_eq_false (by omega),
      decide_eq_false (by omega)]
  · funext side
    have hside : (p.sinkOf side).length + 2 ≤ p.limits.sinkPackets.toNat := by
      cases side
      · exact h.n3Sink
      · exact h.n6Sink
    have hused₄ := hused.sinks side
    rw [view_sinkFull, view_sinkFull, hused.limits, decide_eq_false (by omega),
      decide_eq_false (by omega)]

end Room

/-! ## Footprints -/

section Footprint

variable [InetText] {p : PacketPipeline} {packet : Packet} {r : Verdict}

/-- A written token state is that of the QER the winner cites. -/
theorem Judged.tokens (h : Judged p packet r) {w : UInt32 × TokenBucketState}
    (hw : r.effect.tokens = some w) :
    ∃ rules winner, p.triedWinner packet = some (rules, winner) ∧ winner.qerId = some ⟨w.1⟩ := by
  cases h with
  | untried _ heffect _ => rw [heffect] at hw; cases hw
  | @tried rules winner _ hwinner _ hruling =>
    obtain ⟨qer, hcited, hkey⟩ := hruling.tokens w hw
    exact ⟨rules, winner, hwinner, hkey ▸ (citedQer_mem hcited).2⟩

/-- A written counter state is that of the URR the winner cites. -/
theorem Judged.usage (h : Judged p packet r) {w : UInt32 × UsageCounterState}
    (hw : r.effect.usage = some w) :
    ∃ rules winner, p.triedWinner packet = some (rules, winner) ∧ winner.urrId = some ⟨w.1⟩ := by
  cases h with
  | untried _ heffect _ => rw [heffect] at hw; cases hw
  | @tried rules winner _ hwinner _ hruling =>
    obtain ⟨urr, hcited, hkey⟩ := hruling.usage w hw
    exact ⟨rules, winner, hwinner, hkey ▸ (citedUrr_mem hcited).2⟩

theorem NoCommonRules.symm {a b : Packet} (h : NoCommonRules p a b) : NoCommonRules p b a where
  qers rules rules' winner winner' hb ha id hid hid' :=
    h.qers rules' rules winner' winner ha hb id hid' hid
  urrs rules rules' winner winner' hb ha id hid hid' :=
    h.urrs rules' rules winner' winner ha hb id hid' hid

theorem NoCommonRules.apart {a b : Packet} (h : NoCommonRules p a b) {r r' : Verdict}
    (ha : Judged p a r) (hb : Judged p b r') : Effect.Apart r.effect r'.effect := by
  constructor
  · intro w w' hw hw' hkey
    obtain ⟨rules, winner, hwinner, hid⟩ := ha.tokens hw
    obtain ⟨rules', winner', hwinner', hid'⟩ := hb.tokens hw'
    exact h.qers _ _ _ _ hwinner hwinner' _ hid (hkey ▸ hid')
  · intro w w' hw hw' hkey
    obtain ⟨rules, winner, hwinner, hid⟩ := ha.usage hw
    obtain ⟨rules', winner', hwinner', hid'⟩ := hb.usage hw'
    exact h.urrs _ _ _ _ hwinner hwinner' _ hid (hkey ▸ hid')

/-- **The second packet gets the verdict it would have got first.** -/
theorem NoCommonRules.verdict_after {a b : Packet} (h : NoCommonRules p a b) (hroom : RoomForTwo p)
    (ha : Judged p a r) (runId scenarioId : String) :
    (p.settle r).2.verdict b runId scenarioId = p.verdict b runId scenarioId := by
  have hused := settle_oneUsed p r
  obtain ⟨-, -, hreports, hsinks⟩ := hroom.second hused
  refine verdict_congr hused.rules fun rules winner hwinner => ⟨?_, ?_, hreports, hsinks⟩
  · intro qer hcited
    have hother : ∀ w, r.effect.tokens = some w → w.1 ≠ qer.id.value := by
      intro w hw hkey
      obtain ⟨rules', winner', hwinner', hid⟩ := ha.tokens hw
      exact h.qers _ _ _ _ hwinner' hwinner _ hid (hkey ▸ (citedQer_mem hcited).2)
    simp only [view, settle, retain_runtime, applyEffect]
    rw [getElem?_write_of_apart _ hother]
  · intro urr hcited
    have hother : ∀ w, r.effect.usage = some w → w.1 ≠ urr.id.value := by
      intro w hw hkey
      obtain ⟨rules', winner', hwinner', hid⟩ := ha.usage hw
      exact h.urrs _ _ _ _ hwinner' hwinner _ hid (hkey ▸ (citedUrr_mem hcited).2)
    simp only [view, settle, retain_runtime, applyEffect]
    rw [getElem?_write_of_apart _ hother]

end Footprint

/-! ## Two packets -/

section Commute

variable [InetText] {p : PacketPipeline} {limits : CapacityLimits}

theorem Judged.observed {packet : Packet} {r : Verdict} (h : Judged p packet r) :
    r.decision.observabilityDegraded = false := by
  cases h with
  | untried _ _ hreported => exact hreported.observed
  | tried _ _ hruling => exact hruling.observed

/-- With room for its result and its event, a packet is returned the
decision of its verdict. -/
theorem WellFormed.process_decision (hwf : p.WellFormed)
    (hresults : p.decisions.length < p.limits.results.toNat)
    (hevents : p.events.length < p.limits.events.toNat) (packet : Packet)
    (runId scenarioId : String) :
    p.process packet runId scenarioId
      = some ((p.verdict packet runId scenarioId).decision,
          (p.settle (p.verdict packet runId scenarioId)).2) := by
  rw [hwf.process_eq hresults,
    ← settle_decision hevents (hwf.judged packet runId scenarioId).observed]

/-- Two packets in a row, each with the verdict of the state before both. -/
theorem process_both (hwf : p.WellFormed) (hroom : RoomForTwo p) {a b : Packet}
    (h : NoCommonRules p a b) (runA scenarioA runB scenarioB : String) :
    p.process a runA scenarioA = some ((p.verdict a runA scenarioA).decision,
        (p.settle (p.verdict a runA scenarioA)).2) ∧
      (p.settle (p.verdict a runA scenarioA)).2.process b runB scenarioB
        = some ((p.verdict b runB scenarioB).decision,
            ((p.settle (p.verdict a runA scenarioA)).2.settle (p.verdict b runB scenarioB)).2) := by
  have hresults := hroom.results
  have hevents := hroom.events
  have hfirst := hwf.process_decision (by omega) (by omega) a runA scenarioA
  have hafter : (p.settle (p.verdict a runA scenarioA)).2.WellFormed :=
    hwf.exec (exec_process hfirst)
  obtain ⟨hresults', hevents', -, -⟩ := hroom.second (settle_oneUsed p (p.verdict a runA scenarioA))
  refine ⟨hfirst, ?_⟩
  rw [hafter.process_decision hresults' hevents',
    h.verdict_after hroom (hwf.judged a runA scenarioA)]

/-- **Packets using different QERs and URRs commute**: in every reachable
state with room for both, processing them in either order returns the same
two decisions and ends in the same runtime state, with the same reports and
sinks up to order. -/
theorem process_commutes (h : Reachable PacketPipeline.exec (new limits) p) (hroom : RoomForTwo p)
    {a b : Packet} (hapart : NoCommonRules p a b) (runA scenarioA runB scenarioB : String) :
    ∃ da db pa pb pab pba,
      p.process a runA scenarioA = some (da, pa) ∧ pa.process b runB scenarioB = some (db, pab) ∧
      p.process b runB scenarioB = some (db, pb) ∧ pb.process a runA scenarioA = some (da, pba) ∧
      SameUpToOrder pab pba := by
  have hwf := wellFormed_of_reachable h
  obtain ⟨ha, hab⟩ := process_both hwf hroom hapart runA scenarioA runB scenarioB
  obtain ⟨hb, hba⟩ := process_both hwf hroom hapart.symm runB scenarioB runA scenarioA
  refine ⟨_, _, _, _, _, _, ha, hab, hb, hba, ?_⟩
  exact settle_comm p
    (hapart.apart (hwf.judged a runA scenarioA) (hwf.judged b runB scenarioB))

end Commute

/-- `basicRules` with a PDR for TCP, under a QER and a URR of its own. -/
def pairRules : RuleSet :=
  { basicRules with
    pdrs := basicRules.pdrs ++ basicRules.pdrs.map fun pdr =>
      { pdr with id := ⟨11⟩, precedence := 200, protocol := some .tcp, qerId := some ⟨31⟩,
                 urrId := some ⟨41⟩ }
    qers := basicRules.qers ++ basicRules.qers.map fun qer => { qer with id := ⟨31⟩ }
    urrs := basicRules.urrs ++ basicRules.urrs.map fun urr =>
      { urr with id := ⟨41⟩, volumeThresholdBytes := 1000 } }

/-- The uplink packet over TCP. -/
def tcpPacket : Packet := { uplinkPacket with packetId := "pkt-ul-002", protocol := .tcp }

def pairPipeline : PacketPipeline := ((new {}).install pairRules).2

/-- What the winner of a packet cites. -/
def citedIds [InetText] (p : PacketPipeline) (packet : Packet) : Option (Option QerId × Option UrrId) :=
  (p.triedWinner packet).map fun tried => (tried.2.qerId, tried.2.urrId)

theorem pair_noCommonRules : @NoCommonRules dottedText pairPipeline uplinkPacket tcpPacket := by
  have ha : @citedIds dottedText pairPipeline uplinkPacket = some (some ⟨30⟩, some ⟨40⟩) := by
    decide +kernel
  have hb : @citedIds dottedText pairPipeline tcpPacket = some (some ⟨31⟩, some ⟨41⟩) := by
    decide +kernel
  unfold citedIds at ha hb
  refine @NoCommonRules.mk dottedText _ _ _ ?_ ?_
  · intro rules rules' winner winner' hwinner hwinner' id hid hid'
    simp only [hwinner, hwinner', Option.map_some, Option.some.injEq, Prod.mk.injEq, hid, hid'] at ha hb
    exact absurd (ha.1.symm.trans hb.1) (by decide)
  · intro rules rules' winner winner' hwinner hwinner' id hid hid'
    simp only [hwinner, hwinner', Option.map_some, Option.some.injEq, Prod.mk.injEq, hid, hid'] at ha hb
    exact absurd (ha.2.symm.trans hb.2) (by decide)

theorem process_commutes_pair :
    ∃ da db pa pb pab pba,
      @process dottedText pairPipeline uplinkPacket "r" "s" = some (da, pa) ∧
      @process dottedText pa tcpPacket "r" "s" = some (db, pab) ∧
      @process dottedText pairPipeline tcpPacket "r" "s" = some (db, pb) ∧
      @process dottedText pb uplinkPacket "r" "s" = some (da, pba) ∧ SameUpToOrder pab pba :=
  @process_commutes dottedText pairPipeline {} ⟨[.install pairRules], _, rfl⟩
    ⟨by decide, by decide, by decide, by decide, by decide⟩ uplinkPacket tcpPacket
    pair_noCommonRules "r" "s" "r" "s"

end PacketPipeline

end UpfPolicy
