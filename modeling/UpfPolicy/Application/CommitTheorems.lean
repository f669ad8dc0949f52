/-
UpfPolicy.Application.CommitTheorems — what a packet changes, and whether
the decision tells the truth about it.

`process_commit_atomic` is the frame of `process`: a terminal result of the
committed kind comes with exactly the planned writes, `RATE_LIMITED` with a
refill of the winner's bucket, every other result with none.

`process_truthful_iff` compares the facts of the decision with the runtime
state before and after the call. They are the planned values, so they are
wrong on the exits that abandon a plan (`Stranded`) and right on all others.
-/
import UpfPolicy.Application.ProcessTheorems

namespace UpfPolicy

open Support

namespace PacketPipeline

/-! ## The frame -/

/-- The winner the decision names. -/
structure Winner (p : PacketPipeline) (packet : Packet) (d : PacketDecision) (rules : RuleSet)
    (winner : Pdr) : Prop where
  installed : p.rules = some rules
  selects : Selects rules packet winner
  named : d.selectedPdrId = winner.id.value

/-- The planned writes to the runtime state and the reports, for some
winner. -/
def Committed (p : PacketPipeline) (packet : Packet) (d : PacketDecision) (p' : PacketPipeline) :
    Prop :=
  ∃ rules winner, Winner p packet d rules winner ∧
    p'.runtime = p.committedRuntime rules packet winner ∧
    p'.reports = p.reports ++ p.newReports rules packet winner

/-- The bucket of the winner's QER is refilled, and nothing else changes. -/
def Refilled (p : PacketPipeline) (packet : Packet) (d : PacketDecision) (p' : PacketPipeline) :
    Prop :=
  ∃ rules winner qer next, Winner p packet d rules winner ∧ citedQer rules winner = some qer ∧
    p'.runtime = { p.runtime with qers := p.runtime.qers.insert qer.id.value next } ∧
    (p.tokensOf qer).tokensBytes.toNat ≤ next.tokensBytes.toNat ∧
    p'.reports = p.reports ∧ p'.n3Sink = p.n3Sink ∧ p'.n6Sink = p.n6Sink

/-- What each terminal result says about the stores. -/
def CommitFrame (p : PacketPipeline) (packet : Packet) (d : PacketDecision) (p' : PacketPipeline) :
    Prop :=
  match d.terminalResult with
  | .forwardedToN3 => Committed p packet d p' ∧
      (∃ out, p'.n3Sink = p.n3Sink ++ [out]) ∧ p'.n6Sink = p.n6Sink
  | .forwardedToN6 => Committed p packet d p' ∧
      (∃ out, p'.n6Sink = p.n6Sink ++ [out]) ∧ p'.n3Sink = p.n3Sink
  | .farDropped => Committed p packet d p' ∧ p'.n3Sink = p.n3Sink ∧ p'.n6Sink = p.n6Sink
  | .rateLimited => Refilled p packet d p'
  | _ => SameStores p p'

/-- The four key sets of the runtime state. -/
structure SameKeys (r r' : RuntimeState) : Prop where
  qers : ∀ k, k ∈ r'.qers ↔ k ∈ r.qers
  urrs : ∀ k, k ∈ r'.urrs ↔ k ∈ r.urrs
  qerGenerations : ∀ k, k ∈ r'.qerGenerations ↔ k ∈ r.qerGenerations
  urrGenerations : ∀ k, k ∈ r'.urrGenerations ↔ k ∈ r.urrGenerations

theorem sameKeys_of_aligned {rules : RuleSet} {r r' : RuntimeState} (h : Aligned rules r)
    (h' : Aligned rules r') : SameKeys r r' where
  qers k := (h'.qers.keys k).trans (h.qers.keys k).symm
  urrs k := (h'.urrs.keys k).trans (h.urrs.keys k).symm
  qerGenerations k := by
    have hsame : r'.qerGenerations = r.qerGenerations :=
      h'.qers.generations.trans h.qers.generations.symm
    rw [hsame]
  urrGenerations k := by
    have hsame : r'.urrGenerations = r.urrGenerations :=
      h'.urrs.generations.trans h.urrs.generations.symm
    rw [hsame]

section Frame

variable {p p' : PacketPipeline} {packet : Packet} {d : PacketDecision}

theorem Rejection.frame {result : TerminalResult} (h : Rejection p packet result)
    (hresult : d.terminalResult = result) (hkept : SameStores p p') : CommitFrame p packet d p' := by
  unfold CommitFrame
  cases h <;> rw [hresult] <;> exact hkept

/-- A refill never takes tokens. -/
theorem Limited.tokens_le {qer : Qer} (h : Limited p packet qer) :
    (p.tokensOf qer).tokensBytes.toNat ≤ (p.meter packet qer).next.tokensBytes.toNat := by
  have htokens : (p.meter packet qer).next.tokensBytes.toNat
      = qer.bucket.level (p.tokensOf qer).fill packet.arrivalTimeMicros.toNat :=
    congrArg Fill.tokens h.next
  rw [htokens]
  exact Nat.le_add_right _ _

/-- **Every exit respects the frame.** -/
theorem ProcessExit.frame (h : ProcessExit p packet d p') : CommitFrame p packet d p' := by
  cases h with
  | rejected hwhy hresult _ _ hkept => exact hwhy.frame hresult hkept
  | @denied _ _ _ qer hat _ _ hdenied hfailure hresult _ _ hkept =>
    unfold CommitFrame
    rcases evaluateQer_failure qer (p.tokensOf qer) packet.payloadBytes.toUInt64
        packet.arrivalTimeMicros hdenied with hf | hf | hf
    · rw [hresult, meter, hf]; exact hkept
    · rw [hresult, meter, hf]; exact hkept
    · exact absurd hf hfailure
  | limited hat hwinner hcited hdenied hfailure hresult _ _ hruntime hreports hn3 hn6 =>
    unfold CommitFrame
    rw [hresult]
    exact ⟨_, _, _, _, ⟨hat.installed, hat.selects, hwinner⟩, hcited, hruntime,
      (meter_limited hdenied hfailure).tokens_le, hreports, hn3, hn6⟩
  | overflow _ _ _ _ _ hresult _ _ hkept => unfold CommitFrame; rw [hresult]; exact hkept
  | reportsFull _ _ _ _ _ _ _ hresult _ _ hkept => unfold CommitFrame; rw [hresult]; exact hkept
  | sinkFull _ _ _ _ _ _ hresult _ _ hkept => unfold CommitFrame; rw [hresult]; exact hkept
  | dropped hat hwinner _ _ _ hresult _ _ hruntime hreports hn3 hn6 =>
    unfold CommitFrame
    rw [hresult]
    exact ⟨⟨_, _, ⟨hat.installed, hat.selects, hwinner⟩, hruntime, hreports⟩, hn3, hn6⟩
  | forwarded hat hwinner _ _ _ _ hresult _ _ hruntime hreports hsink hother =>
    unfold CommitFrame
    rw [hresult]
    have hcommitted : Committed p packet d p' :=
      ⟨_, _, ⟨hat.installed, hat.selects, hwinner⟩, hruntime, hreports⟩
    cases hside : packet.ingress with
    | n3 =>
      rw [hside] at hsink hother
      exact ⟨hcommitted, ⟨_, hsink⟩, hother⟩
    | n6 =>
      rw [hside] at hsink hother
      exact ⟨hcommitted, ⟨_, hsink⟩, hother⟩

end Frame

/-- **Commit atomicity and frame.** From every reachable pipeline a packet
returns a decision, leaves the ruleset and the key sets alone, and changes
exactly what its terminal result says. -/
theorem process_commit_atomic [InetText] {limits : CapacityLimits} {p : PacketPipeline}
    (h : Reachable exec (new limits) p) (packet : Packet) (runId scenarioId : String) :
    ∃ d p', p.process packet runId scenarioId = some (d, p') ∧
      p'.rules = p.rules ∧ SameKeys p.runtime p'.runtime ∧ CommitFrame p packet d p' := by
  have hwf := wellFormed_of_reachable h
  obtain ⟨d, p', hprocess, hconfig, hexit⟩ := hwf.process_exit packet runId scenarioId
  exact ⟨d, p', hprocess, hconfig.rules, sameKeys_of_aligned hwf.aligned (hexit.aligned hwf),
    hexit.frame⟩

/-- The uplink packet of the test builders, right after their rules are
installed. -/
theorem process_commit_atomic_uplink :
    ∃ d p', @process dottedText ((new {}).install basicRules).2 uplinkPacket "r" "s" = some (d, p') ∧
      p'.rules = ((new {}).install basicRules).2.rules ∧
      SameKeys ((new {}).install basicRules).2.runtime p'.runtime ∧
      CommitFrame ((new {}).install basicRules).2 uplinkPacket d p' :=
  @process_commit_atomic dottedText {} _ ⟨[.install basicRules], _, rfl⟩ uplinkPacket "r" "s"

/-! ## The facts of the decision -/

/-- The facts about the QER are those of the runtime state. -/
def QerTruthful (p p' : PacketPipeline) (d : QerDecision) : Prop :=
  d.applicable = true → ∃ before after, p.runtime.qers[d.qerId]? = some before ∧
    p'.runtime.qers[d.qerId]? = some after ∧
    d.tokensBefore = before.tokensBytes ∧ d.tokensAfter = after.tokensBytes

/-- The facts about the URR are those of the runtime state; `counted` says
whether the counters moved. -/
def UrrTruthful (p p' : PacketPipeline) (d : UrrDecision) : Prop :=
  d.applicable = true → ∃ before after, p.runtime.urrs[d.urrId]? = some before ∧
    p'.runtime.urrs[d.urrId]? = some after ∧
    d.packetsBefore = before.packets ∧ d.bytesBefore = before.payloadBytes ∧
    d.packetsAfter = after.packets ∧ d.bytesAfter = after.payloadBytes ∧
    (d.counted = true ↔ after.packets ≠ before.packets ∨ after.payloadBytes ≠ before.payloadBytes)

/-- The decision tells the truth about the call. -/
structure Truthful (p p' : PacketPipeline) (d : PacketDecision) : Prop where
  qer : QerTruthful p p' d.qer
  urr : UrrTruthful p p' d.urr

/-- The cited QER, if any, refills to the size of the packet. -/
def QerReady (p : PacketPipeline) (rules : RuleSet) (packet : Packet) (winner : Pdr) : Prop :=
  ∀ qer, citedQer rules winner = some qer →
    QerRefills qer (p.tokensOf qer) packet.arrivalTimeMicros ∧
      packet.payloadBytes.toNat
        ≤ qer.bucket.level (p.tokensOf qer).fill packet.arrivalTimeMicros.toNat

/-- A plan that differs from the state before the call, for a packet the QER
admits, and a later stage that has to give the plan up. -/
inductive Stranded (p : PacketPipeline) (packet : Packet) : Prop where
  | overflow {rules : RuleSet} {winner : Pdr} {far : Far} {urr : Urr}
      (hat : Attempt p packet rules winner far) (hready : QerReady p rules packet winner)
      (hcited : citedUrr rules winner = some urr)
      (hover : UrrOverflows (p.usageOf urr) packet.payloadBytes.toUInt64)
  | reportsFull {rules : RuleSet} {winner : Pdr} {far : Far} {urr : Urr}
      (hat : Attempt p packet rules winner far) (hready : QerReady p rules packet winner)
      (hcited : citedUrr rules winner = some urr)
      (hdue : UrrReportDue urr (p.usageOf urr) packet.payloadBytes.toUInt64)
      (hfull : p.limits.reports.toNat ≤ p.reports.length)
  | sinkFull {rules : RuleSet} {winner : Pdr} {far : Far}
      (hat : Attempt p packet rules winner far) (hready : QerReady p rules packet winner)
      (haction : far.action = .forward)
      (hfull : p.limits.sinkPackets.toNat ≤ (p.sinkOf packet.ingress.opposite).length)
      (hvisible : (∃ urr, citedUrr rules winner = some urr) ∨
        ∃ qer, citedQer rules winner = some qer ∧
          qer.bucket.added (p.tokensOf qer).fill packet.arrivalTimeMicros.toNat
            ≠ packet.payloadBytes.toNat)

section Truth

variable {p p' : PacketPipeline} {packet : Packet} {rules : RuleSet} {winner : Pdr} {far : Far}
  {d : PacketDecision}

theorem qerAdmits_iff : QerAdmits p rules packet winner ↔ QerReady p rules packet winner := by
  simp only [QerAdmits, QerReady, meter, evaluateQer_allowed_iff, payload_toNat]

/-- The QER facts of an evaluation are true exactly when the entry after the
call has the tokens they name. -/
theorem meter_truthful_iff {qer : Qer} {after : TokenBucketState}
    (hheld : p.runtime.qers[qer.id.value]? = some (p.tokensOf qer))
    (hafter : p'.runtime.qers[qer.id.value]? = some after) :
    QerTruthful p p' (p.meter packet qer).decision ↔
      (p.meter packet qer).decision.tokensAfter = after.tokensBytes := by
  have hfacts := evaluateQer_facts qer (p.tokensOf qer) packet.payloadBytes.toUInt64
    packet.arrivalTimeMicros
  rw [← meter] at hfacts
  rw [QerTruthful, hfacts.qerId, hheld, hafter]
  constructor
  · intro h
    obtain ⟨_, _, hb, ha, _, htokens⟩ := h hfacts.applicable
    cases hb
    cases ha
    exact htokens
  · intro h _
    exact ⟨_, _, rfl, rfl, hfacts.tokensBefore, h⟩

theorem account_truthful_iff {urr : Urr} {after : UsageCounterState}
    (hheld : p.runtime.urrs[urr.id.value]? = some (p.usageOf urr))
    (hafter : p'.runtime.urrs[urr.id.value]? = some after) :
    UrrTruthful p p' (p.account rules packet urr).decision ↔
      (p.account rules packet urr).decision.packetsAfter = after.packets ∧
      (p.account rules packet urr).decision.bytesAfter = after.payloadBytes ∧
      (after.packets ≠ (p.usageOf urr).packets ∨ after.payloadBytes ≠ (p.usageOf urr).payloadBytes) := by
  have hfacts := evaluateUrr_facts urr (p.usageOf urr) packet.payloadBytes.toUInt64
    rules.sessionId rules.version
  rw [← account] at hfacts
  rw [UrrTruthful, hfacts.urrId, hheld, hafter]
  constructor
  · intro h
    obtain ⟨_, _, hb, ha, _, _, hpackets, hbytes, hcounted⟩ := h hfacts.applicable
    cases hb
    cases ha
    exact ⟨hpackets, hbytes, hcounted.mp hfacts.counted⟩
  · intro h _
    exact ⟨_, _, rfl, rfl, hfacts.packetsBefore, hfacts.bytesBefore, h.1, h.2.1,
      ⟨fun _ => h.2.2, fun _ => hfacts.counted⟩⟩

/-- The tokens an admitted packet leaves, by what it was charged. -/
theorem Charged.tokens_add {qer : Qer} (h : Charged p packet qer) :
    (p.meter packet qer).next.tokensBytes.toNat + packet.payloadBytes.toNat
      = (p.tokensOf qer).tokensBytes.toNat
        + qer.bucket.added (p.tokensOf qer).fill packet.arrivalTimeMicros.toNat := by
  have htokens : (p.meter packet qer).next.tokensBytes.toNat
      = qer.bucket.level (p.tokensOf qer).fill packet.arrivalTimeMicros.toNat
        - packet.payloadBytes.toNat := congrArg Fill.tokens h.next
  have henough := h.enough
  have hlevel : qer.bucket.level (p.tokensOf qer).fill packet.arrivalTimeMicros.toNat
      = (p.tokensOf qer).tokensBytes.toNat
        + qer.bucket.added (p.tokensOf qer).fill packet.arrivalTimeMicros.toNat := rfl
  omega

/-- An abandoned plan is told truthfully about the QER exactly when the
refill happens to replace what the packet would have spent. -/
theorem qerReport_kept_iff (halign : Aligned rules p.runtime)
    (hadmits : QerAdmits p rules packet winner) (hkept : p'.runtime = p.runtime) :
    QerTruthful p p' (p.qerReport rules packet winner) ↔
      ∀ qer, citedQer rules winner = some qer →
        qer.bucket.added (p.tokensOf qer).fill packet.arrivalTimeMicros.toNat
          = packet.payloadBytes.toNat := by
  unfold qerReport
  cases hcited : citedQer rules winner with
  | none => exact ⟨fun _ _ h => (by cases h), fun _ h => (by cases h)⟩
  | some qer =>
    have hheld := tokens_held halign hcited
    have hcharged := meter_charged (hadmits qer hcited)
    have htokens := hcharged.tokens_add
    have hkeptEntry : p'.runtime.qers[qer.id.value]? = some (p.tokensOf qer) := by
      rw [hkept]; exact hheld
    simp only [Option.some.injEq, forall_eq']
    rw [meter_truthful_iff hheld hkeptEntry, hcharged.after, ← UInt64.toNat_inj]
    omega

/-- An abandoned count is never told truthfully. -/
theorem urrReport_kept_iff (halign : Aligned rules p.runtime) (hkept : p'.runtime = p.runtime) :
    UrrTruthful p p' (p.urrReport rules packet winner) ↔ citedUrr rules winner = none := by
  unfold urrReport
  cases hcited : citedUrr rules winner with
  | none => exact ⟨fun _ => rfl, fun _ h => (by cases h)⟩
  | some urr =>
    have hheld := usage_held halign hcited
    have hkeptEntry : p'.runtime.urrs[urr.id.value]? = some (p.usageOf urr) := by
      rw [hkept]; exact hheld
    rw [account_truthful_iff hheld hkeptEntry]
    simp

/-- A decision that reports such a count does not tell the truth. -/
theorem not_truthful_of_uncounted {urr : Urr} (halign : Aligned rules p.runtime)
    (hcited : citedUrr rules winner = some urr)
    (hurr : d.urr = (p.account rules packet urr).decision) (hkept : p'.runtime = p.runtime) :
    ¬ Truthful p p' d := by
  intro ht
  have hreport : d.urr = p.urrReport rules packet winner := hurr.trans (by rw [urrReport, hcited])
  have htruth := ht.urr
  rw [hreport, urrReport_kept_iff halign hkept, hcited] at htruth
  cases htruth

/-- A committed plan is told truthfully. -/
theorem committed_truthful (halign : Aligned rules p.runtime)
    (hadmits : QerAdmits p rules packet winner) (hcounts : UrrAdmits p rules packet winner)
    (hqer : d.qer = p.qerReport rules packet winner)
    (hurr : d.urr = p.urrReport rules packet winner)
    (hruntime : p'.runtime = p.committedRuntime rules packet winner) : Truthful p p' d := by
  constructor
  · rw [hqer]
    unfold qerReport
    cases hcited : citedQer rules winner with
    | none => exact fun h => (by cases h)
    | some qer =>
      have hnext : p'.runtime.qers[qer.id.value]? = some (p.meter packet qer).next := by
        rw [hruntime, committedRuntime, hcited]
        exact Std.ExtTreeMap.getElem?_insert_self
      rw [meter_truthful_iff (tokens_held halign hcited) hnext]
      exact (meter_charged (hadmits qer hcited)).after
  · rw [hurr]
    unfold urrReport
    cases hcited : citedUrr rules winner with
    | none => exact fun h => (by cases h)
    | some urr =>
      have hnext : p'.runtime.urrs[urr.id.value]? = some (p.account rules packet urr).next := by
        rw [hruntime, committedRuntime, hcited]
        exact Std.ExtTreeMap.getElem?_insert_self
      rw [account_truthful_iff (usage_held halign hcited) hnext]
      cases evaluateUrr_outcome urr (p.usageOf urr) packet.payloadBytes.toUInt64 rules.sessionId
          rules.version with
      | overflow _ hflag _ _ =>
        have hfits := (hcounts urr hcited).1
        rw [account, hflag] at hfits
        cases hfits
      | counted _ _ hpackets _ hafterPackets hafterBytes _ _ _ =>
        refine ⟨hafterPackets, hafterBytes, Or.inl fun heq => ?_⟩
        rw [← UInt64.toNat_inj, account, hpackets] at heq
        omega

theorem UrrAdmits.fits (h : UrrAdmits p rules packet winner) {urr : Urr}
    (hcited : citedUrr rules winner = some urr) :
    ¬ UrrOverflows (p.usageOf urr) packet.payloadBytes.toUInt64 := by
  have hflag := (h urr hcited).1
  rw [← evaluateUrr_overflow_iff urr _ _ rules.sessionId rules.version, ← account, hflag]
  simp

theorem UrrAdmits.room (h : UrrAdmits p rules packet winner) {urr : Urr}
    (hcited : citedUrr rules winner = some urr)
    (hdue : UrrReportDue urr (p.usageOf urr) packet.payloadBytes.toUInt64) :
    p.reports.length < p.limits.reports.toNat := by
  refine (h urr hcited).2 ?_
  rw [account, evaluateUrr_report_iff]
  exact ⟨h.fits hcited, hdue⟩

/-- What a stranded packet of an attempt looks like. -/
theorem Attempt.stranded_iff (h : p.WellFormed) (hat : Attempt p packet rules winner far) :
    Stranded p packet ↔ QerReady p rules packet winner ∧
      ((∃ urr, citedUrr rules winner = some urr ∧
          UrrOverflows (p.usageOf urr) packet.payloadBytes.toUInt64) ∨
        (∃ urr, citedUrr rules winner = some urr ∧
          UrrReportDue urr (p.usageOf urr) packet.payloadBytes.toUInt64 ∧
          p.limits.reports.toNat ≤ p.reports.length) ∨
        (far.action = .forward ∧
          p.limits.sinkPackets.toNat ≤ (p.sinkOf packet.ingress.opposite).length ∧
          ((∃ urr, citedUrr rules winner = some urr) ∨
            ∃ qer, citedQer rules winner = some qer ∧
              qer.bucket.added (p.tokensOf qer).fill packet.arrivalTimeMicros.toNat
                ≠ packet.payloadBytes.toNat))) := by
  constructor
  · intro hs
    cases hs with
    | overflow hat' hready hcited hover =>
      obtain ⟨rfl, rfl, rfl⟩ := hat.unique h hat'
      exact ⟨hready, Or.inl ⟨_, hcited, hover⟩⟩
    | reportsFull hat' hready hcited hdue hfull =>
      obtain ⟨rfl, rfl, rfl⟩ := hat.unique h hat'
      exact ⟨hready, Or.inr (Or.inl ⟨_, hcited, hdue, hfull⟩)⟩
    | sinkFull hat' hready haction hfull hvisible =>
      obtain ⟨rfl, rfl, rfl⟩ := hat.unique h hat'
      exact ⟨hready, Or.inr (Or.inr ⟨haction, hfull, hvisible⟩)⟩
  · rintro ⟨hready, ⟨urr, hcited, hover⟩ | ⟨urr, hcited, hdue, hfull⟩ | ⟨haction, hfull, hvisible⟩⟩
    · exact .overflow hat hready hcited hover
    · exact .reportsFull hat hready hcited hdue hfull
    · exact .sinkFull hat hready haction hfull hvisible

/-- A packet with an admitted plan is stranded only by its sink. -/
theorem Attempt.stranded_iff_of_admits (h : p.WellFormed) (hat : Attempt p packet rules winner far)
    (hadmits : QerAdmits p rules packet winner) (hcounts : UrrAdmits p rules packet winner) :
    Stranded p packet ↔ far.action = .forward ∧
      p.limits.sinkPackets.toNat ≤ (p.sinkOf packet.ingress.opposite).length ∧
      ((∃ urr, citedUrr rules winner = some urr) ∨
        ∃ qer, citedQer rules winner = some qer ∧
          qer.bucket.added (p.tokensOf qer).fill packet.arrivalTimeMicros.toNat
            ≠ packet.payloadBytes.toNat) := by
  rw [hat.stranded_iff h]
  constructor
  · rintro ⟨-, ⟨urr, hcited, hover⟩ | ⟨urr, hcited, hdue, hfull⟩ | hsink⟩
    · exact absurd hover (hcounts.fits hcited)
    · exact absurd hfull (Nat.not_le.mpr (hcounts.room hcited hdue))
    · exact hsink
  · intro hsink
    exact ⟨qerAdmits_iff.mp hadmits, Or.inr (Or.inr hsink)⟩

/-- A denied packet is not stranded. -/
theorem Attempt.not_stranded_of_denied (h : p.WellFormed) (hat : Attempt p packet rules winner far)
    {qer : Qer} (hcited : citedQer rules winner = some qer)
    (hdenied : (p.meter packet qer).decision.allowed = false) : ¬ Stranded p packet := by
  rw [hat.stranded_iff h]
  rintro ⟨hready, -⟩
  rw [qerAdmits_iff.mpr hready qer hcited] at hdenied
  cases hdenied

/-- **An exit tells the truth unless the packet is stranded.** -/
theorem ProcessExit.truthful_iff (h : p.WellFormed) (hexit : ProcessExit p packet d p') :
    Truthful p p' d ↔ ¬ Stranded p packet := by
  cases hexit with
  | rejected hwhy _ hqer hurr _ =>
    refine iff_of_true ⟨?_, ?_⟩ ?_
    · rw [hqer]; exact fun happ => (by cases happ)
    · rw [hurr]; exact fun happ => (by cases happ)
    · intro hs
      cases hs with
      | overflow hat _ _ _ => exact hwhy.not_attempt hat
      | reportsFull hat _ _ _ _ => exact hwhy.not_attempt hat
      | sinkFull hat _ _ _ _ => exact hwhy.not_attempt hat
  | @denied _ _ _ qer hat _ hcited hdenied hfailure _ hqer hurr hkept =>
    have hheld := tokens_held (h.aligned_of_rules hat.installed) hcited
    have hkeptEntry : p'.runtime.qers[qer.id.value]? = some (p.tokensOf qer) := by
      rw [hkept.runtime]; exact hheld
    refine iff_of_true ⟨?_, ?_⟩ (hat.not_stranded_of_denied h hcited hdenied)
    · rw [hqer, meter_truthful_iff hheld hkeptEntry]
      exact meter_denied hdenied hfailure
    · rw [hurr]; exact fun happ => (by cases happ)
  | @limited _ _ _ qer hat _ hcited hdenied hfailure _ hqer hurr hruntime _ _ _ =>
    have hheld := tokens_held (h.aligned_of_rules hat.installed) hcited
    have hnext : p'.runtime.qers[qer.id.value]? = some (p.meter packet qer).next := by
      rw [hruntime]; exact Std.ExtTreeMap.getElem?_insert_self
    refine iff_of_true ⟨?_, ?_⟩ (hat.not_stranded_of_denied h hcited hdenied)
    · rw [hqer, meter_truthful_iff hheld hnext]
      exact (meter_limited hdenied hfailure).after
    · rw [hurr]; exact fun happ => (by cases happ)
  | overflow hat _ hadmits hcited hover _ _ hurr hkept =>
    refine iff_of_false ?_ (not_not_intro ?_)
    · exact not_truthful_of_uncounted (h.aligned_of_rules hat.installed) hcited hurr hkept.runtime
    · exact .overflow hat (qerAdmits_iff.mp hadmits) hcited
        ((evaluateUrr_overflow_iff _ _ _ _ _).mp hover)
  | reportsFull hat _ hadmits hcited _ hreportDue hfull _ _ hurr hkept =>
    refine iff_of_false ?_ (not_not_intro ?_)
    · exact not_truthful_of_uncounted (h.aligned_of_rules hat.installed) hcited hurr hkept.runtime
    · exact .reportsFull hat (qerAdmits_iff.mp hadmits) hcited
        ((evaluateUrr_report_iff _ _ _ _ _).mp hreportDue).2 hfull
  | sinkFull hat _ hadmits hcounts haction hfull _ hqer hurr hkept =>
    have halign := h.aligned_of_rules hat.installed
    have htruth : Truthful p p' d ↔
        QerTruthful p p' d.qer ∧ UrrTruthful p p' d.urr := ⟨fun t => ⟨t.qer, t.urr⟩,
      fun t => ⟨t.1, t.2⟩⟩
    rw [htruth, hqer, hurr, qerReport_kept_iff halign hadmits hkept.runtime,
      urrReport_kept_iff halign hkept.runtime, hat.stranded_iff_of_admits h hadmits hcounts]
    simp only [haction, hfull, true_and, not_or, not_exists, not_and, not_not,
      Option.eq_none_iff_forall_ne_some]
    exact and_comm
  | dropped hat _ hadmits hcounts haction _ hqer hurr hruntime _ _ _ =>
    refine iff_of_true
      (committed_truthful (h.aligned_of_rules hat.installed) hadmits hcounts hqer hurr hruntime) ?_
    rw [hat.stranded_iff_of_admits h hadmits hcounts, haction]
    rintro ⟨hforward, -⟩
    cases hforward
  | forwarded hat _ hadmits hcounts _ hroom _ hqer hurr hruntime _ _ _ =>
    refine iff_of_true
      (committed_truthful (h.aligned_of_rules hat.installed) hadmits hcounts hqer hurr hruntime) ?_
    rw [hat.stranded_iff_of_admits h hadmits hcounts]
    rintro ⟨-, hfull, -⟩
    exact Nat.not_le.mpr hroom hfull

end Truth

/-- **When the decision tells the truth.** From every reachable pipeline, for
every packet: exactly when the packet is not stranded. -/
theorem process_truthful_iff [InetText] {limits : CapacityLimits} {p : PacketPipeline}
    (h : Reachable exec (new limits) p) (packet : Packet) (runId scenarioId : String) :
    ∃ d p', p.process packet runId scenarioId = some (d, p') ∧
      (Truthful p p' d ↔ ¬ Stranded p packet) := by
  have hwf := wellFormed_of_reachable h
  obtain ⟨d, p', hprocess, -, hexit⟩ := hwf.process_exit packet runId scenarioId
  exact ⟨d, p', hprocess, hexit.truthful_iff hwf⟩

theorem process_truthful_iff_uplink :
    ∃ d p', @process dottedText ((new {}).install basicRules).2 uplinkPacket "r" "s" = some (d, p') ∧
      (Truthful ((new {}).install basicRules).2 p' d ↔
        ¬ Stranded ((new {}).install basicRules).2 uplinkPacket) :=
  @process_truthful_iff dottedText {} _ ⟨[.install basicRules], _, rfl⟩ uplinkPacket "r" "s"

/-- The run that fills a sink of one packet. -/
def fullSinkRun : Option (List PipelineEvent × PacketPipeline) :=
  run (@exec dottedText) (new { sinkPackets := 1 })
    [.install basicRules, .process uplinkPacket "r" "s"]

theorem fullSinkRun_isSome : fullSinkRun.isSome = true := by decide +kernel

/-- The second uplink packet of that run. -/
def strandedCall : Option (PacketDecision × PacketPipeline) :=
  @process dottedText (fullSinkRun.get fullSinkRun_isSome).2 uplinkPacket "r" "s"

theorem strandedCall_isSome : strandedCall.isSome = true := by decide +kernel

/-- The second packet finds the sink full. Its decision says the URR counted
two packets; the runtime state still holds one. -/
theorem process_not_always_truthful :
    ¬ ∀ (limits : CapacityLimits) (p p' : PacketPipeline) (packet : Packet)
        (runId scenarioId : String) (d : PacketDecision),
      Reachable (@exec dottedText) (new limits) p →
      @process dottedText p packet runId scenarioId = some (d, p') → Truthful p p' d := by
  intro h
  have htruth := h { sinkPackets := 1 } _ (strandedCall.get strandedCall_isSome).2 uplinkPacket
    "r" "s" (strandedCall.get strandedCall_isSome).1 (reachable_of_isSome fullSinkRun_isSome)
    (Option.some_get strandedCall_isSome).symm
  have happlies : (strandedCall.get strandedCall_isSome).1.urr.applicable = true := by
    decide +kernel
  have hsaid : (strandedCall.get strandedCall_isSome).1.urr.packetsAfter = 2 := by decide +kernel
  have hheld : ((strandedCall.get strandedCall_isSome).2.runtime.urrs[
      (strandedCall.get strandedCall_isSome).1.urr.urrId]?).map (·.packets) = some 1 := by
    decide +kernel
  obtain ⟨before, after, -, hafter, -, -, hpackets, -⟩ := htruth.urr happlies
  rw [hafter, Option.map_some, ← hpackets, hsaid] at hheld
  exact absurd hheld (by decide)

end PacketPipeline

end UpfPolicy
