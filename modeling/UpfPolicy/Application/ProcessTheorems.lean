/-
UpfPolicy.Application.ProcessTheorems — every return of `process`.

`WellFormed.process_exit` is the one spec lemma of `process`: on a
well-formed pipeline it never dereferences a null pointer, and its result
is one of the constructors of `ProcessExit`, in the order of the source's
returns. Each constructor says under which condition on the pipeline and
the packet it is taken, what the decision reports and what changed.

A packet that gets as far as the QER stage is an `Attempt`; what the
stages plan for it (`meter`, `account`) depends on the state before the
call only.
-/
import UpfPolicy.Application.InstallTheorems
import UpfPolicy.Application.SelectionTheorems
import UpfPolicy.Support.Runs

namespace UpfPolicy

open Support

namespace PacketPipeline

/-! ## Recording a decision -/

section Retain

variable (p : PacketPipeline) (d : PacketDecision)

@[simp] theorem retain_limits : (p.retain d).2.limits = p.limits := by
  unfold retain; split <;> rfl

@[simp] theorem retain_rules : (p.retain d).2.rules = p.rules := by
  unfold retain; split <;> rfl

@[simp] theorem retain_runtime : (p.retain d).2.runtime = p.runtime := by
  unfold retain; split <;> rfl

@[simp] theorem retain_reports : (p.retain d).2.reports = p.reports := by
  unfold retain; split <;> rfl

@[simp] theorem retain_n3Sink : (p.retain d).2.n3Sink = p.n3Sink := by
  unfold retain; split <;> rfl

@[simp] theorem retain_n6Sink : (p.retain d).2.n6Sink = p.n6Sink := by
  unfold retain; split <;> rfl

@[simp] theorem retain_qer : (p.retain d).1.qer = d.qer := by
  unfold retain; split <;> rfl

@[simp] theorem retain_urr : (p.retain d).1.urr = d.urr := by
  unfold retain; split <;> rfl

@[simp] theorem retain_selectedPdrId : (p.retain d).1.selectedPdrId = d.selectedPdrId := by
  unfold retain; split <;> rfl

@[simp] theorem retain_terminalResult : (p.retain d).1.terminalResult = d.terminalResult := by
  unfold retain; split <;> rfl

@[simp] theorem retain_sinkPresent : (p.retain d).1.sinkPresent = d.sinkPresent := by
  unfold retain; split <;> rfl

@[simp] theorem retain_transformedPresent :
    (p.retain d).1.transformedPresent = d.transformedPresent := by
  unfold retain; split <;> rfl

@[simp] theorem retain_transformedPacket :
    (p.retain d).1.transformedPacket = d.transformedPacket := by
  unfold retain; split <;> rfl

end Retain

/-! ## What the stages plan -/

/-- The entries `evaluateQer` and `evaluateUrr` read. -/
def tokensOf (p : PacketPipeline) (qer : Qer) : TokenBucketState :=
  p.runtime.qers[qer.id.value]?.getD default

def usageOf (p : PacketPipeline) (urr : Urr) : UsageCounterState :=
  p.runtime.urrs[urr.id.value]?.getD default

def meter (p : PacketPipeline) (packet : Packet) (qer : Qer) : QerEvaluation :=
  evaluateQer qer (p.tokensOf qer) packet.payloadBytes.toUInt64 packet.arrivalTimeMicros

def account (p : PacketPipeline) (rules : RuleSet) (packet : Packet) (urr : Urr) : UrrEvaluation :=
  evaluateUrr urr (p.usageOf urr) packet.payloadBytes.toUInt64 rules.sessionId rules.version

section Meter

variable {p : PacketPipeline} {packet : Packet} {qer : Qer}

theorem payload_toNat (packet : Packet) :
    packet.payloadBytes.toUInt64.toNat = packet.payloadBytes.toNat :=
  UInt32.toNat_toUInt64 _

/-- A packet denied for another reason than its size leaves the bucket alone. -/
theorem meter_denied (hdenied : (p.meter packet qer).decision.allowed = false)
    (hfailure : (p.meter packet qer).failure ≠ .rateLimited) :
    (p.meter packet qer).decision.tokensAfter = (p.tokensOf qer).tokensBytes := by
  cases evaluateQer_outcome qer (p.tokensOf qer) packet.payloadBytes.toUInt64
      packet.arrivalTimeMicros with
  | closed _ _ _ _ hafter => exact hafter
  | arithmetic _ _ _ _ _ hafter => exact hafter
  | limited _ _ _ _ hf _ => exact absurd hf hfailure
  | charged _ _ _ ha _ => rw [meter, ha] at hdenied; cases hdenied

/-- What a packet turned away for its size does to the bucket: a refill. -/
structure Limited (p : PacketPipeline) (packet : Packet) (qer : Qer) : Prop where
  forward : (p.tokensOf qer).fill.last ≤ packet.arrivalTimeMicros.toNat
  next : (p.meter packet qer).next.fill
    = qer.bucket.refill (p.tokensOf qer).fill packet.arrivalTimeMicros.toNat
  after : (p.meter packet qer).decision.tokensAfter = (p.meter packet qer).next.tokensBytes

theorem meter_limited (hdenied : (p.meter packet qer).decision.allowed = false)
    (hfailure : (p.meter packet qer).failure = .rateLimited) : Limited p packet qer := by
  cases evaluateQer_outcome qer (p.tokensOf qer) packet.payloadBytes.toUInt64
      packet.arrivalTimeMicros with
  | closed _ _ _ hf _ => rw [meter, hf] at hfailure; cases hfailure
  | arithmetic _ _ _ _ hf _ => rw [meter, hf] at hfailure; cases hfailure
  | limited hrefill _ hnext _ _ hafter => exact ⟨hrefill.forward, hnext, hafter⟩
  | charged _ _ _ ha _ => rw [meter, ha] at hdenied; cases hdenied

/-- What an admitted packet does to the bucket: a refill and a charge. -/
structure Charged (p : PacketPipeline) (packet : Packet) (qer : Qer) : Prop where
  forward : (p.tokensOf qer).fill.last ≤ packet.arrivalTimeMicros.toNat
  enough : packet.payloadBytes.toNat
    ≤ qer.bucket.level (p.tokensOf qer).fill packet.arrivalTimeMicros.toNat
  next : (p.meter packet qer).next.fill
    = (qer.bucket.refill (p.tokensOf qer).fill packet.arrivalTimeMicros.toNat).spend
        packet.payloadBytes.toNat
  after : (p.meter packet qer).decision.tokensAfter = (p.meter packet qer).next.tokensBytes

theorem meter_charged (hallowed : (p.meter packet qer).decision.allowed = true) :
    Charged p packet qer := by
  cases evaluateQer_outcome qer (p.tokensOf qer) packet.payloadBytes.toUInt64
      packet.arrivalTimeMicros with
  | closed _ _ ha _ _ => rw [meter, ha] at hallowed; cases hallowed
  | arithmetic _ _ _ ha _ _ => rw [meter, ha] at hallowed; cases hallowed
  | limited _ _ _ ha _ _ => rw [meter, ha] at hallowed; cases hallowed
  | charged hrefill henough hnext _ hafter =>
    rw [payload_toNat] at henough hnext
    exact ⟨hrefill.forward, henough, hnext, hafter⟩

end Meter

/-- What the decision reports about the QER once the packet is admitted. -/
def qerReport (p : PacketPipeline) (rules : RuleSet) (packet : Packet) (winner : Pdr) :
    QerDecision :=
  match citedQer rules winner with
  | none => { outcome := "NOT_APPLICABLE", allowed := true }
  | some qer => (p.meter packet qer).decision

def urrReport (p : PacketPipeline) (rules : RuleSet) (packet : Packet) (winner : Pdr) :
    UrrDecision :=
  match citedUrr rules winner with
  | none => {}
  | some urr => (p.account rules packet urr).decision

/-- The runtime state and the report IDs of a committed packet. -/
def committedRuntime (p : PacketPipeline) (rules : RuleSet) (packet : Packet) (winner : Pdr) :
    RuntimeState :=
  { p.runtime with
    qers := match citedQer rules winner with
      | none => p.runtime.qers
      | some qer => p.runtime.qers.insert qer.id.value (p.meter packet qer).next
    urrs := match citedUrr rules winner with
      | none => p.runtime.urrs
      | some urr => p.runtime.urrs.insert urr.id.value (p.account rules packet urr).next }

def newReports (p : PacketPipeline) (rules : RuleSet) (packet : Packet) (winner : Pdr) :
    List String :=
  match citedUrr rules winner with
  | none => []
  | some urr =>
    if (p.account rules packet urr).reportGenerated then
      [(p.account rules packet urr).decision.reportId]
    else []

/-- The result of a packet that leaves through an interface. -/
def forwardedTo : Interface → TerminalResult
  | .n3 => .forwardedToN3
  | .n6 => .forwardedToN6

/-! ## Exits -/

/-- The packet gets as far as the QER stage. -/
structure Attempt (p : PacketPipeline) (packet : Packet) (rules : RuleSet) (winner : Pdr)
    (far : Far) : Prop where
  room : p.decisions.length < p.limits.results.toNat
  installed : p.rules = some rules
  valid : validPacket packet = true
  session : packet.sessionId = rules.sessionId
  selects : Selects rules packet winner
  resolves : findFar rules winner.farId = some far
  resolved : FarResolved far packet (evaluateFar far packet)

/-- Why a packet does not get as far as the QER stage. -/
inductive Rejection (p : PacketPipeline) (packet : Packet) : TerminalResult → Prop where
  | resultsFull (hfull : p.limits.results.toNat ≤ p.decisions.length) :
      Rejection p packet .capacityError
  | noRules (hrules : p.rules = none) : Rejection p packet .noMatch
  | malformed {rules : RuleSet} (hrules : p.rules = some rules)
      (hbad : validPacket packet = false ∨ packet.sessionId ≠ rules.sessionId) :
      Rejection p packet .malformedPacket
  | noMatch {rules : RuleSet} (hrules : p.rules = some rules)
      (hnone : ∀ pdr ∈ rules.pdrs, ¬ PdrMatches pdr packet) : Rejection p packet .noMatch

/-- The cited QER, if any, admits the packet. -/
def QerAdmits (p : PacketPipeline) (rules : RuleSet) (packet : Packet) (winner : Pdr) : Prop :=
  ∀ qer, citedQer rules winner = some qer → (p.meter packet qer).decision.allowed = true

/-- The cited URR, if any, can count the packet and report it. -/
def UrrAdmits (p : PacketPipeline) (rules : RuleSet) (packet : Packet) (winner : Pdr) : Prop :=
  ∀ urr, citedUrr rules winner = some urr →
    (p.account rules packet urr).overflow = false ∧
      ((p.account rules packet urr).reportGenerated = true →
        p.reports.length < p.limits.reports.toNat)

/-- Nothing but the record of the decision changed. -/
structure SameStores (p p' : PacketPipeline) : Prop where
  runtime : p'.runtime = p.runtime
  reports : p'.reports = p.reports
  n3Sink : p'.n3Sink = p.n3Sink
  n6Sink : p'.n6Sink = p.n6Sink

/-- Every return of `process`. -/
inductive ProcessExit (p : PacketPipeline) (packet : Packet) (d : PacketDecision)
    (p' : PacketPipeline) : Prop where
  | rejected {result : TerminalResult} (hwhy : Rejection p packet result)
      (hresult : d.terminalResult = result) (hqer : d.qer = {}) (hurr : d.urr = {})
      (hkept : SameStores p p')
  | denied {rules : RuleSet} {winner : Pdr} {far : Far} {qer : Qer}
      (hat : Attempt p packet rules winner far)
      (hwinner : d.selectedPdrId = winner.id.value) (hcited : citedQer rules winner = some qer)
      (hdenied : (p.meter packet qer).decision.allowed = false)
      (hfailure : (p.meter packet qer).failure ≠ .rateLimited)
      (hresult : d.terminalResult = (p.meter packet qer).failure)
      (hqer : d.qer = (p.meter packet qer).decision) (hurr : d.urr = {})
      (hkept : SameStores p p')
  | limited {rules : RuleSet} {winner : Pdr} {far : Far} {qer : Qer}
      (hat : Attempt p packet rules winner far)
      (hwinner : d.selectedPdrId = winner.id.value) (hcited : citedQer rules winner = some qer)
      (hdenied : (p.meter packet qer).decision.allowed = false)
      (hfailure : (p.meter packet qer).failure = .rateLimited)
      (hresult : d.terminalResult = .rateLimited)
      (hqer : d.qer = (p.meter packet qer).decision) (hurr : d.urr = {})
      (hruntime : p'.runtime = { p.runtime with
        qers := p.runtime.qers.insert qer.id.value (p.meter packet qer).next })
      (hreports : p'.reports = p.reports) (hn3 : p'.n3Sink = p.n3Sink) (hn6 : p'.n6Sink = p.n6Sink)
  | overflow {rules : RuleSet} {winner : Pdr} {far : Far} {urr : Urr}
      (hat : Attempt p packet rules winner far)
      (hwinner : d.selectedPdrId = winner.id.value) (hadmits : QerAdmits p rules packet winner)
      (hcited : citedUrr rules winner = some urr)
      (hover : (p.account rules packet urr).overflow = true)
      (hresult : d.terminalResult = .arithmeticError)
      (hqer : d.qer = p.qerReport rules packet winner)
      (hurr : d.urr = (p.account rules packet urr).decision) (hkept : SameStores p p')
  | reportsFull {rules : RuleSet} {winner : Pdr} {far : Far} {urr : Urr}
      (hat : Attempt p packet rules winner far)
      (hwinner : d.selectedPdrId = winner.id.value) (hadmits : QerAdmits p rules packet winner)
      (hcited : citedUrr rules winner = some urr)
      (hfits : (p.account rules packet urr).overflow = false)
      (hreport : (p.account rules packet urr).reportGenerated = true)
      (hfull : p.limits.reports.toNat ≤ p.reports.length)
      (hresult : d.terminalResult = .capacityError)
      (hqer : d.qer = p.qerReport rules packet winner)
      (hurr : d.urr = (p.account rules packet urr).decision) (hkept : SameStores p p')
  | sinkFull {rules : RuleSet} {winner : Pdr} {far : Far}
      (hat : Attempt p packet rules winner far)
      (hwinner : d.selectedPdrId = winner.id.value) (hadmits : QerAdmits p rules packet winner)
      (hcounts : UrrAdmits p rules packet winner) (haction : far.action = .forward)
      (hfull : p.limits.sinkPackets.toNat ≤ (p.sinkOf packet.ingress.opposite).length)
      (hresult : d.terminalResult = .capacityError)
      (hqer : d.qer = p.qerReport rules packet winner)
      (hurr : d.urr = p.urrReport rules packet winner) (hkept : SameStores p p')
  | dropped {rules : RuleSet} {winner : Pdr} {far : Far}
      (hat : Attempt p packet rules winner far)
      (hwinner : d.selectedPdrId = winner.id.value) (hadmits : QerAdmits p rules packet winner)
      (hcounts : UrrAdmits p rules packet winner) (haction : far.action = .drop)
      (hresult : d.terminalResult = .farDropped)
      (hqer : d.qer = p.qerReport rules packet winner)
      (hurr : d.urr = p.urrReport rules packet winner)
      (hruntime : p'.runtime = p.committedRuntime rules packet winner)
      (hreports : p'.reports = p.reports ++ p.newReports rules packet winner)
      (hn3 : p'.n3Sink = p.n3Sink) (hn6 : p'.n6Sink = p.n6Sink)
  | forwarded {rules : RuleSet} {winner : Pdr} {far : Far}
      (hat : Attempt p packet rules winner far)
      (hwinner : d.selectedPdrId = winner.id.value) (hadmits : QerAdmits p rules packet winner)
      (hcounts : UrrAdmits p rules packet winner) (haction : far.action = .forward)
      (hroom : (p.sinkOf packet.ingress.opposite).length < p.limits.sinkPackets.toNat)
      (hresult : d.terminalResult = forwardedTo packet.ingress.opposite)
      (hqer : d.qer = p.qerReport rules packet winner)
      (hurr : d.urr = p.urrReport rules packet winner)
      (hruntime : p'.runtime = p.committedRuntime rules packet winner)
      (hreports : p'.reports = p.reports ++ p.newReports rules packet winner)
      (hsink : p'.sinkOf packet.ingress.opposite
        = p.sinkOf packet.ingress.opposite ++ [(evaluateFar far packet).packet])
      (hother : p'.sinkOf packet.ingress = p.sinkOf packet.ingress)

/-! ## The stages -/

section Commit

variable (p : PacketPipeline) (plan : Plan)

@[simp] theorem commitPlan_limits : (p.commitPlan plan).limits = p.limits := by
  unfold commitPlan; split <;> split <;> rfl

@[simp] theorem commitPlan_rules : (p.commitPlan plan).rules = p.rules := by
  unfold commitPlan; split <;> split <;> rfl

@[simp] theorem commitPlan_n3Sink : (p.commitPlan plan).n3Sink = p.n3Sink := by
  unfold commitPlan; split <;> split <;> rfl

@[simp] theorem commitPlan_n6Sink : (p.commitPlan plan).n6Sink = p.n6Sink := by
  unfold commitPlan; split <;> split <;> rfl

@[simp] theorem pushSink_limits (packet : Packet) (i : Interface) :
    (p.pushSink packet i).limits = p.limits := by cases i <;> rfl

@[simp] theorem pushSink_rules (packet : Packet) (i : Interface) :
    (p.pushSink packet i).rules = p.rules := by cases i <;> rfl

@[simp] theorem pushSink_runtime (packet : Packet) (i : Interface) :
    (p.pushSink packet i).runtime = p.runtime := by cases i <;> rfl

@[simp] theorem pushSink_reports (packet : Packet) (i : Interface) :
    (p.pushSink packet i).reports = p.reports := by cases i <;> rfl

end Commit

/-- The plan of an admitted packet, as the stages hand it on. -/
def planOf (p : PacketPipeline) (rules : RuleSet) (packet : Packet) (winner : Pdr) : Plan where
  tokens := (citedQer rules winner).map fun qer => (qer.id.value, (p.meter packet qer).next)
  usage := (citedUrr rules winner).map fun urr => (urr.id.value, p.account rules packet urr)

theorem commitPlan_runtime (p : PacketPipeline) (rules : RuleSet) (packet : Packet) (winner : Pdr) :
    (p.commitPlan (p.planOf rules packet winner)).runtime
      = p.committedRuntime rules packet winner := by
  unfold commitPlan planOf committedRuntime
  cases citedQer rules winner <;> cases citedUrr rules winner <;> rfl

theorem commitPlan_reports (p : PacketPipeline) (rules : RuleSet) (packet : Packet) (winner : Pdr) :
    (p.commitPlan (p.planOf rules packet winner)).reports
      = p.reports ++ p.newReports rules packet winner := by
  unfold commitPlan planOf newReports
  cases citedQer rules winner <;> cases citedUrr rules winner <;> simp only [Option.map_none,
    Option.map_some, List.append_nil] <;> split <;> simp

theorem commit_exit {p : PacketPipeline} {packet : Packet} {rules : RuleSet} {winner : Pdr}
    {far : Far} {d : PacketDecision} (hat : Attempt p packet rules winner far)
    (hadmits : QerAdmits p rules packet winner) (hcounts : UrrAdmits p rules packet winner)
    (hwinner : d.selectedPdrId = winner.id.value) (hqer : d.qer = p.qerReport rules packet winner)
    (hurr : d.urr = p.urrReport rules packet winner) :
    ProcessExit p packet
      (p.commit d far (evaluateFar far packet) (p.planOf rules packet winner)).1
      (p.commit d far (evaluateFar far packet) (p.planOf rules packet winner)).2 := by
  have hforwarded := hat.resolved.forwarded
  unfold commit
  cases haction : far.action with
  | drop =>
    simp only [hforwarded, haction, reduceCtorEq, decide_false, Bool.false_and, Bool.false_eq_true,
      if_true, if_false]
    exact .dropped hat (by simp [hwinner]) hadmits hcounts haction (by simp) (by simp [hqer])
      (by simp [hurr]) (by simp [commitPlan_runtime]) (by simp [commitPlan_reports]) (by simp)
      (by simp)
  | forward =>
    have hdest := hat.resolved.destination haction
    simp only [hforwarded, haction, hdest, reduceCtorEq, decide_true, Bool.true_and, if_false]
    by_cases hfull : p.limits.sinkPackets.toNat ≤ (p.sinkOf packet.ingress.opposite).length
    · simp only [ge_iff_le, hfull, decide_true, if_true]
      exact .sinkFull hat (by simp [hwinner]) hadmits hcounts haction hfull (by simp)
        (by simp [hqer]) (by simp [hurr]) ⟨by simp, by simp, by simp, by simp⟩
    · simp only [ge_iff_le, hfull, decide_false, Bool.false_eq_true, if_false]
      refine .forwarded hat (by simp [hwinner]) hadmits hcounts haction (Nat.not_le.mp hfull) ?_
        (by simp [hqer]) (by simp [hurr]) (by simp [commitPlan_runtime])
        (by simp [commitPlan_reports]) ?_ ?_
      · cases packet.ingress <;> simp [forwardedTo, Interface.opposite]
      · cases packet.ingress <;> simp [sinkOf, pushSink, Interface.opposite]
      · cases packet.ingress <;> simp [sinkOf, pushSink, Interface.opposite]

/-- The configuration is the same. -/
structure SameConfig (p p' : PacketPipeline) : Prop where
  limits : p'.limits = p.limits
  rules : p'.rules = p.rules

/-- A call that returns leaves the configuration alone and has one of the
exits. -/
def Returns (p : PacketPipeline) (packet : Packet) (r : Option (PacketDecision × PacketPipeline)) :
    Prop :=
  ∃ d p', r = some (d, p') ∧ SameConfig p p' ∧ ProcessExit p packet d p'

theorem ProcessExit.returned {p : PacketPipeline} {packet : Packet}
    {r : PacketDecision × PacketPipeline} (h : ProcessExit p packet r.1 r.2)
    (hconfig : SameConfig p r.2) : Returns p packet (some r) :=
  ⟨r.1, r.2, rfl, hconfig, h⟩

theorem commit_config (p : PacketPipeline) (d : PacketDecision) (far : Far)
    (evaluation : FarEvaluation) (plan : Plan) :
    SameConfig p (p.commit d far evaluation plan).2 := by
  unfold commit
  split
  · exact ⟨by simp, by simp⟩
  · split
    · exact ⟨by simp, by simp⟩
    · exact ⟨by simp, by simp⟩

/-- The tokens of an admitted packet, before the URR stage. -/
def tokenPlan (p : PacketPipeline) (rules : RuleSet) (packet : Packet) (winner : Pdr) : Plan where
  tokens := (citedQer rules winner).map fun qer => (qer.id.value, (p.meter packet qer).next)

/-- A subscript at an installed ID inserts nothing. -/
theorem subscript_urrs {p : PacketPipeline} {rules : RuleSet} (h : Aligned rules p.runtime)
    {urr : Urr} (hurr : urr ∈ rules.urrs) :
    subscript p.runtime.urrs urr.id.value = (p.usageOf urr, p.runtime.urrs) := by
  obtain ⟨state, hstate⟩ := h.usage hurr
  rw [subscript_of_getElem? hstate, usageOf, hstate, Option.getD_some]

theorem subscript_qers {p : PacketPipeline} {rules : RuleSet} (h : Aligned rules p.runtime)
    {qer : Qer} (hqer : qer ∈ rules.qers) :
    subscript p.runtime.qers qer.id.value = (p.tokensOf qer, p.runtime.qers) := by
  obtain ⟨state, hstate⟩ := h.tokens hqer
  rw [subscript_of_getElem? hstate, tokensOf, hstate, Option.getD_some]

section Stages

variable {p : PacketPipeline} {packet : Packet} {rules : RuleSet} {winner : Pdr} {far : Far}
  {d : PacketDecision}

theorem accountUrr_exit (haligned : Aligned rules p.runtime) (hrefs : PdrReferences rules winner)
    (hat : Attempt p packet rules winner far) (hadmits : QerAdmits p rules packet winner)
    (hwinner : d.selectedPdrId = winner.id.value) (hqer : d.qer = p.qerReport rules packet winner)
    (hurr : d.urr = {}) :
    Returns p packet (p.accountUrr rules packet winner d far (evaluateFar far packet)
      (p.tokenPlan rules packet winner)) := by
  unfold accountUrr
  cases hid : winner.urrId with
  | none =>
    have hcited : citedUrr rules winner = none := by rw [citedUrr, hid]; rfl
    have hplan : p.tokenPlan rules packet winner = p.planOf rules packet winner := by
      rw [tokenPlan, planOf, hcited]; rfl
    rw [hplan]
    refine (commit_exit hat hadmits (fun urr h => ?_) hwinner hqer ?_).returned
      (commit_config ..)
    · rw [hcited] at h; cases h
    · rw [urrReport, hcited, hurr]
  | some urrId =>
    obtain ⟨urr, hfind, hcited, hmem, rfl⟩ := hrefs.urr_cited hid
    simp only [hfind, subscript_urrs haligned hmem]
    -- the account of the stage is that of the specification
    rw [show evaluateUrr urr (p.usageOf urr) packet.payloadBytes.toUInt64 rules.sessionId
      rules.version = p.account rules packet urr from rfl]
    cases hover : (p.account rules packet urr).overflow with
    | true =>
      exact ProcessExit.returned
        (.overflow hat (by simp [hwinner]) hadmits hcited hover (by simp) (by simp [hqer]) (by simp)
          ⟨by simp, by simp, by simp, by simp⟩)
        ⟨by simp, by simp⟩
    | false =>
      simp only [Bool.false_eq_true, if_false]
      by_cases hroom : (p.account rules packet urr).reportGenerated = true →
          p.reports.length < p.limits.reports.toNat
      · have hcounts : UrrAdmits p rules packet winner := by
          intro urr' hurr'
          rw [hcited] at hurr'
          cases hurr'
          exact ⟨hover, hroom⟩
        have hgo : ((p.account rules packet urr).reportGenerated &&
            decide (p.reports.length ≥ p.limits.reports.toNat)) = false := by
          rw [← Bool.not_eq_true, Bool.and_eq_true, decide_eq_true_eq]
          exact fun h => Nat.not_le.mpr (hroom h.1) h.2
        have hplan : ({ p.tokenPlan rules packet winner with
            usage := some (urr.id.value, p.account rules packet urr) } : Plan)
              = p.planOf rules packet winner := by
          rw [tokenPlan, planOf, hcited]; rfl
        simp only [hgo, Bool.false_eq_true, if_false, hplan]
        refine ProcessExit.returned (commit_exit hat hadmits hcounts hwinner hqer ?_)
          (commit_config ..)
        rw [urrReport, hcited]
      · rw [Classical.not_imp, Nat.not_lt] at hroom
        simp only [hroom.1, ge_iff_le, hroom.2, decide_true, Bool.and_self, if_true]
        exact ProcessExit.returned
          (.reportsFull hat (by simp [hwinner]) hadmits hcited hover hroom.1 hroom.2 (by simp)
            (by simp [hqer]) (by simp) ⟨by simp, by simp, by simp, by simp⟩)
          ⟨by simp, by simp⟩

theorem resolveFar_exit (haligned : Aligned rules p.runtime) (hrefs : PdrReferences rules winner)
    (hat : Attempt p packet rules winner far) (hadmits : QerAdmits p rules packet winner)
    (hwinner : d.selectedPdrId = winner.id.value) (hqer : d.qer = p.qerReport rules packet winner)
    (hurr : d.urr = {}) :
    Returns p packet
      (p.resolveFar rules packet winner d (p.tokenPlan rules packet winner)) := by
  unfold resolveFar
  simp only [hat.resolves, hat.resolved.valid, Bool.not_true, Bool.false_eq_true, if_false]
  exact accountUrr_exit haligned hrefs hat hadmits hwinner hqer hurr

theorem enforceQer_exit (haligned : Aligned rules p.runtime) (hrefs : PdrReferences rules winner)
    (hat : Attempt p packet rules winner far) (hwinner : d.selectedPdrId = winner.id.value)
    (hqer : d.qer = {}) (hurr : d.urr = {}) :
    Returns p packet (p.enforceQer rules packet winner d) := by
  unfold enforceQer
  cases hid : winner.qerId with
  | none =>
    have hcited : citedQer rules winner = none := by rw [citedQer, hid]; rfl
    have hplan : ({} : Plan) = p.tokenPlan rules packet winner := by rw [tokenPlan, hcited]; rfl
    dsimp only
    rw [hplan]
    refine resolveFar_exit haligned hrefs hat (fun qer h => ?_) hwinner ?_ hurr
    · rw [hcited] at h; cases h
    · rw [qerReport, hcited, hqer]
  | some qerId =>
    obtain ⟨qer, hfind, hcited, hmem, rfl⟩ := hrefs.qer_cited hid
    simp only [hfind, subscript_qers haligned hmem]
    rw [show evaluateQer qer (p.tokensOf qer) packet.payloadBytes.toUInt64 packet.arrivalTimeMicros
      = p.meter packet qer from rfl]
    cases hallowed : (p.meter packet qer).decision.allowed with
    | true =>
      have hplan : ({ tokens := some (qer.id.value, (p.meter packet qer).next) } : Plan)
          = p.tokenPlan rules packet winner := by rw [tokenPlan, hcited]; rfl
      simp only [Bool.not_true, Bool.false_eq_true, if_false, hplan]
      refine resolveFar_exit haligned hrefs hat (fun qer' h => ?_) hwinner ?_ hurr
      · rw [hcited] at h; cases h; exact hallowed
      · rw [qerReport, hcited]
    | false =>
      simp only [Bool.not_false, if_true]
      by_cases hfailure : (p.meter packet qer).failure = .rateLimited
      · simp only [hfailure, if_true]
        exact ProcessExit.returned
          (.limited hat (by simp [hwinner]) hcited hallowed hfailure (by simp) (by simp)
            (by simp [hurr]) (by simp) (by simp) (by simp) (by simp))
          ⟨by simp, by simp⟩
      · simp only [if_neg hfailure]
        exact ProcessExit.returned
          (.denied hat (by simp [hwinner]) hcited hallowed hfailure (by simp) (by simp)
            (by simp [hurr]) ⟨by simp, by simp, by simp, by simp⟩)
          ⟨by simp, by simp⟩

end Stages

/-! ## The call -/

/-- **Every return of `process`**: on a well-formed pipeline no null
pointer is dereferenced. -/
theorem WellFormed.process_exit [InetText] {p : PacketPipeline} (h : p.WellFormed)
    (packet : Packet) (runId scenarioId : String) :
    Returns p packet (p.process packet runId scenarioId) := by
  unfold process
  by_cases hfull : p.decisions.length ≥ p.limits.results.toNat
  · simp only [hfull, if_true]
    exact ProcessExit.returned (.rejected (.resultsFull hfull) rfl rfl rfl ⟨rfl, rfl, rfl, rfl⟩)
      ⟨rfl, rfl⟩
  · simp only [hfull, if_false]
    cases hrules : p.rules with
    | none =>
      exact ProcessExit.returned
        (.rejected (.noRules hrules) (by simp) (by simp [header]) (by simp [header])
          ⟨by simp, by simp, by simp, by simp⟩)
        ⟨by simp, by simp⟩
    | some rules =>
      have hvalid := h.valid rules hrules
      by_cases hbad : (!validPacket packet || packet.sessionId != rules.sessionId) = true
      · simp only [hbad, if_true]
        refine ProcessExit.returned
          (.rejected (.malformed hrules ?_) (by simp) (by simp [header]) (by simp [header])
            ⟨by simp, by simp, by simp, by simp⟩)
          ⟨by simp, by simp⟩
        simpa using hbad
      · simp only [hbad, Bool.false_eq_true, if_false]
        cases hwinner : (selectPdr rules.pdrs packet).2 with
        | none =>
          refine ProcessExit.returned
            (.rejected (.noMatch hrules ?_) (by simp) (by simp [header]) (by simp [header])
              ⟨by simp, by simp, by simp, by simp⟩)
            ⟨by simp, by simp⟩
          exact (selectPdr_eq_none_iff rules packet).mp hwinner
        | some winner =>
          have hsel := (hvalid.selectPdr_winner packet winner).mp hwinner
          obtain ⟨far, hfar, hresolved⟩ := hvalid.winner_far hsel
          have hok : validPacket packet = true ∧ packet.sessionId = rules.sessionId := by
            simpa using hbad
          exact enforceQer_exit (h.aligned_of_rules hrules)
            (validatePdr_ok (hvalid.pdrOk winner hsel.mem))
            ⟨Nat.not_le.mp hfull, hrules, hok.1, hok.2, hsel, hfar, hresolved⟩ rfl rfl rfl

/-! ## Well-formedness -/

section WellFormed

variable {p p' : PacketPipeline} {packet : Packet} {rules : RuleSet} {winner : Pdr}

/-- The entries of the cited rules are there. -/
theorem tokens_held (h : Aligned rules p.runtime) {qer : Qer}
    (hcited : citedQer rules winner = some qer) :
    p.runtime.qers[qer.id.value]? = some (p.tokensOf qer) := by
  obtain ⟨state, hstate⟩ := h.tokens (citedQer_mem hcited).1
  rw [tokensOf, hstate, Option.getD_some]

theorem usage_held (h : Aligned rules p.runtime) {urr : Urr}
    (hcited : citedUrr rules winner = some urr) :
    p.runtime.urrs[urr.id.value]? = some (p.usageOf urr) := by
  obtain ⟨state, hstate⟩ := h.usage (citedUrr_mem hcited).1
  rw [usageOf, hstate, Option.getD_some]

theorem cited_qer_held (h : Aligned rules p.runtime) {qer : Qer}
    (hcited : citedQer rules winner = some qer) : qer.id.value ∈ p.runtime.qers :=
  Std.ExtTreeMap.mem_iff_isSome_getElem?.mpr (by rw [tokens_held h hcited]; rfl)

theorem cited_urr_held (h : Aligned rules p.runtime) {urr : Urr}
    (hcited : citedUrr rules winner = some urr) : urr.id.value ∈ p.runtime.urrs :=
  Std.ExtTreeMap.mem_iff_isSome_getElem?.mpr (by rw [usage_held h hcited]; rfl)

/-- A commit overwrites entries under installed IDs only. -/
theorem aligned_committed (h : Aligned rules p.runtime) (packet : Packet) (winner : Pdr) :
    Aligned rules (p.committedRuntime rules packet winner) := by
  constructor
  · unfold committedRuntime RuntimeState.qerStore
    cases hcited : citedQer rules winner with
    | none => exact h.qers
    | some qer => exact h.qers.insert (cited_qer_held h hcited) _
  · unfold committedRuntime RuntimeState.urrStore
    cases hcited : citedUrr rules winner with
    | none => exact h.urrs
    | some urr => exact h.urrs.insert (cited_urr_held h hcited) _

/-- **Every exit keeps the runtime state aligned.** -/
theorem ProcessExit.aligned {d : PacketDecision} (h : p.WellFormed)
    (hexit : ProcessExit p packet d p') : Aligned p.heldRules p'.runtime := by
  have halign := h.aligned
  have hheld : ∀ {rules winner far}, Attempt p packet rules winner far → p.heldRules = rules := by
    intro rules winner far hat
    rw [heldRules, hat.installed, Option.getD_some]
  cases hexit with
  | rejected _ _ _ _ hkept => rw [hkept.runtime]; exact halign
  | denied _ _ _ _ _ _ _ _ hkept => rw [hkept.runtime]; exact halign
  | limited hat _ hcited _ _ _ _ _ hruntime _ _ _ =>
    rw [hheld hat] at halign ⊢
    rw [hruntime]
    exact ⟨halign.qers.insert (cited_qer_held halign hcited) _, halign.urrs⟩
  | overflow _ _ _ _ _ _ _ _ hkept => rw [hkept.runtime]; exact halign
  | reportsFull _ _ _ _ _ _ _ _ _ _ hkept => rw [hkept.runtime]; exact halign
  | sinkFull _ _ _ _ _ _ _ _ _ hkept => rw [hkept.runtime]; exact halign
  | dropped hat _ _ _ _ _ _ _ hruntime _ _ _ =>
    rw [hheld hat] at halign ⊢
    rw [hruntime]
    exact aligned_committed halign packet _
  | forwarded hat _ _ _ _ _ _ _ _ hruntime _ _ _ =>
    rw [hheld hat] at halign ⊢
    rw [hruntime]
    exact aligned_committed halign packet _

theorem WellFormed.of_exit {d : PacketDecision} (h : p.WellFormed) (hconfig : SameConfig p p')
    (hexit : ProcessExit p packet d p') : p'.WellFormed := by
  refine ⟨fun rules hrules => ?_, ?_⟩
  · rw [hconfig.rules] at hrules
    rw [hconfig.limits]
    exact h.valid rules hrules
  · rw [heldRules, hconfig.rules]
    exact hexit.aligned h

end WellFormed

/-! ## Effects -/

/-- What a packet does to the runtime state and the reports. -/
inductive ProcessEffect (p : PacketPipeline) (packet : Packet) (d : PacketDecision)
    (p' : PacketPipeline) : Prop where
  | nothing (hresult : d.terminalResult.committed = false) (hruntime : p'.runtime = p.runtime)
      (hreports : p'.reports = p.reports)
  | refill {rules : RuleSet} {winner : Pdr} {far : Far} {qer : Qer}
      (hresult : d.terminalResult.committed = false) (hat : Attempt p packet rules winner far)
      (hcited : citedQer rules winner = some qer)
      (hdenied : (p.meter packet qer).decision.allowed = false)
      (hfailure : (p.meter packet qer).failure = .rateLimited)
      (hruntime : p'.runtime = { p.runtime with
        qers := p.runtime.qers.insert qer.id.value (p.meter packet qer).next })
      (hreports : p'.reports = p.reports)
  | commit {rules : RuleSet} {winner : Pdr} {far : Far}
      (hresult : d.terminalResult.committed = true) (hat : Attempt p packet rules winner far)
      (hadmits : QerAdmits p rules packet winner) (hcounts : UrrAdmits p rules packet winner)
      (hruntime : p'.runtime = p.committedRuntime rules packet winner)
      (hreports : p'.reports = p.reports ++ p.newReports rules packet winner)

theorem Rejection.not_committed {p : PacketPipeline} {packet : Packet} {result : TerminalResult}
    (h : Rejection p packet result) : result.committed = false := by
  cases h <;> rfl

/-- **An exit has one of three effects.** -/
theorem ProcessExit.effect {p p' : PacketPipeline} {packet : Packet} {d : PacketDecision}
    (h : ProcessExit p packet d p') : ProcessEffect p packet d p' := by
  cases h with
  | rejected hwhy hresult _ _ hkept =>
    exact .nothing (by rw [hresult]; exact hwhy.not_committed) hkept.runtime hkept.reports
  | @denied _ _ _ qer _ _ _ hdenied _ hresult _ _ hkept =>
    refine .nothing ?_ hkept.runtime hkept.reports
    rcases evaluateQer_failure qer (p.tokensOf qer) packet.payloadBytes.toUInt64
        packet.arrivalTimeMicros hdenied with hf | hf | hf <;> rw [hresult, meter, hf] <;> rfl
  | limited hat _ hcited hdenied hfailure hresult _ _ hruntime hreports _ _ =>
    exact .refill (by rw [hresult]; rfl) hat hcited hdenied hfailure hruntime hreports
  | overflow _ _ _ _ _ hresult _ _ hkept =>
    exact .nothing (by rw [hresult]; rfl) hkept.runtime hkept.reports
  | reportsFull _ _ _ _ _ _ _ hresult _ _ hkept =>
    exact .nothing (by rw [hresult]; rfl) hkept.runtime hkept.reports
  | sinkFull _ _ _ _ _ _ hresult _ _ hkept =>
    exact .nothing (by rw [hresult]; rfl) hkept.runtime hkept.reports
  | dropped hat _ hadmits hcounts _ hresult _ _ hruntime hreports _ _ =>
    exact .commit (by rw [hresult]; rfl) hat hadmits hcounts hruntime hreports
  | forwarded hat _ hadmits hcounts _ _ hresult _ _ hruntime hreports _ _ =>
    refine .commit ?_ hat hadmits hcounts hruntime hreports
    rw [hresult]
    cases packet.ingress <;> rfl

/-- The PDR `process` selects for a packet. -/
def winner [InetText] (p : PacketPipeline) (packet : Packet) : Option Pdr :=
  p.rules.bind fun rules => (selectPdr rules.pdrs packet).2

theorem Attempt.winner_eq [InetText] {p : PacketPipeline} {packet : Packet} {rules : RuleSet}
    {pdr : Pdr} {far : Far} (hat : Attempt p packet rules pdr far) (h : p.WellFormed) :
    p.winner packet = some pdr := by
  rw [PacketPipeline.winner, hat.installed, Option.bind_some]
  exact ((h.valid rules hat.installed).selectPdr_winner packet pdr).mpr hat.selects

section Attempts

variable {p : PacketPipeline} {packet : Packet} {rules : RuleSet} {winner : Pdr} {far : Far}

/-- A packet that was rejected did not get as far as the QER stage. -/
theorem Rejection.not_attempt {result : TerminalResult} (h : Rejection p packet result) :
    ¬ Attempt p packet rules winner far := by
  intro hat
  cases h with
  | resultsFull hfull => exact Nat.not_le.mpr hat.room hfull
  | noRules hrules => rw [hat.installed] at hrules; cases hrules
  | malformed hrules hbad =>
    rw [hat.installed] at hrules
    cases hrules
    rcases hbad with hbad | hbad
    · rw [hat.valid] at hbad; cases hbad
    · exact hbad hat.session
  | noMatch hrules hnone =>
    rw [hat.installed] at hrules
    cases hrules
    exact hnone winner hat.selects.mem hat.selects.matched

/-- Two attempts at one packet are the same attempt. -/
theorem Attempt.unique (h : p.WellFormed) {rules' : RuleSet} {winner' : Pdr} {far' : Far}
    (hat : Attempt p packet rules winner far) (hat' : Attempt p packet rules' winner' far') :
    rules = rules' ∧ winner = winner' ∧ far = far' := by
  have hrules : rules = rules' := by
    have hboth := hat.installed.symm.trans hat'.installed
    exact Option.some.inj hboth
  subst hrules
  have hwinner := Selects.unique (h.valid rules hat.installed) hat.selects hat'.selects
  subst hwinner
  have hfar := hat.resolves.symm.trans hat'.resolves
  exact ⟨rfl, rfl, Option.some.inj hfar⟩

end Attempts

/-! ## Runs -/

/-- A call on a pipeline, as recorded. -/
abbrev PipelineEvent := Event PacketPipeline PipelineCall PipelineReply

/-- The committed packet of an event, with its winner. -/
def committedPacket [InetText] (e : PipelineEvent) : Option (Pdr × Packet) :=
  match e.input, e.output with
  | .process packet _ _, .decided d =>
    if d.terminalResult.committed then (e.before.winner packet).map fun pdr => (pdr, packet)
    else none
  | _, _ => none

/-- Everything one call can do. -/
inductive ExecOutcome (p : PacketPipeline) (call : PipelineCall) (reply : PipelineReply)
    (p' : PacketPipeline) : Prop where
  | install {rules : RuleSet} {result : Except String Unit} (hcall : call = .install rules)
      (hreply : reply = .installed result) (houtcome : InstallOutcome p rules result p')
  | process {packet : Packet} {runId scenarioId : String} {d : PacketDecision}
      (hcall : call = .process packet runId scenarioId) (hreply : reply = .decided d)
      (hconfig : SameConfig p p') (hexit : ProcessExit p packet d p')

section Runs

variable [InetText] {p p' : PacketPipeline} {call : PipelineCall} {reply : PipelineReply}

theorem exec_install (p : PacketPipeline) (rules : RuleSet) :
    p.exec (.install rules) = some (.installed (p.install rules).1, (p.install rules).2) := rfl

theorem exec_process {packet : Packet} {runId scenarioId : String} {d : PacketDecision}
    (h : p.process packet runId scenarioId = some (d, p')) :
    p.exec (.process packet runId scenarioId) = some (.decided d, p') := by
  rw [PacketPipeline.exec, h]
  rfl

/-- **Every call returns.** -/
theorem WellFormed.exec_total (h : p.WellFormed) (call : PipelineCall) :
    ∃ reply p', p.exec call = some (reply, p') ∧ ExecOutcome p call reply p' := by
  cases call with
  | install rules => exact ⟨_, _, exec_install p rules, .install rfl rfl (h.install_outcome rules)⟩
  | process packet runId scenarioId =>
    obtain ⟨d, p', hprocess, hconfig, hexit⟩ := h.process_exit packet runId scenarioId
    exact ⟨.decided d, p', exec_process hprocess, .process rfl rfl hconfig hexit⟩

theorem WellFormed.exec_outcome (h : p.WellFormed) (hexec : p.exec call = some (reply, p')) :
    ExecOutcome p call reply p' := by
  obtain ⟨reply', p'', hexec', houtcome⟩ := h.exec_total call
  rw [hexec] at hexec'
  cases hexec'
  exact houtcome

omit [InetText] in
theorem ExecOutcome.wellFormed (h : p.WellFormed) (houtcome : ExecOutcome p call reply p') :
    p'.WellFormed := by
  cases houtcome with
  | install _ _ houtcome => exact houtcome.wellFormed h
  | process _ _ hconfig hexit => exact h.of_exit hconfig hexit

omit [InetText] in
theorem ExecOutcome.limits (houtcome : ExecOutcome p call reply p') : p'.limits = p.limits := by
  cases houtcome with
  | install _ _ houtcome => exact houtcome.limits
  | process _ _ hconfig _ => exact hconfig.limits

theorem WellFormed.exec (h : p.WellFormed) (hexec : p.exec call = some (reply, p')) :
    p'.WellFormed :=
  (h.exec_outcome hexec).wellFormed h

/-- A reachable pipeline is well formed. -/
theorem wellFormed_of_reachable {limits : CapacityLimits}
    (h : Reachable PacketPipeline.exec (new limits) p) : p.WellFormed :=
  h.invariant (wellFormed_new limits) fun _ _ _ _ hs hexec => hs.exec hexec

/-- A run from a new pipeline ends well formed. -/
theorem wellFormed_of_recorded {limits : CapacityLimits}
    {es : List PipelineEvent}
    (h : Recorded PacketPipeline.exec (new limits) es p) : p.WellFormed :=
  h.invariant (wellFormed_new limits) fun _ _ _ _ hs hexec => hs.exec hexec

/-- Every list of calls has a run from a well-formed pipeline. -/
theorem WellFormed.run_total (h : p.WellFormed) (calls : List PipelineCall) :
    ∃ es p', run PacketPipeline.exec p calls = some (es, p') := by
  refine Support.run_total (fun s call hs => ?_) calls h
  obtain ⟨reply, t, hexec, houtcome⟩ := hs.exec_total call
  exact ⟨reply, t, hexec, houtcome.wellFormed hs⟩

end Runs

/-! ## The packet of the test builders -/

/-- `inet_ntop` on the IPv4 addresses of the tests. -/
@[reducible] def dottedText : InetText where
  ntop _ bytes := String.intercalate "." ((bytes.toList.take 4).map fun b => toString b.toNat)

/-- `uplinkPacket` of `tests/support/test_builders.hpp`. -/
def uplinkPacket : Packet where
  packetId := "pkt-ul-001"
  sessionId := "session-1"
  ingress := .n3
  tunnel := some ⟨1001, 9⟩
  sourceIp := {
    family := .ipv4
    bytes := #v[10, 10, 0, 7, 0, 0, 0, 0, 0, 0, 0, 0, 0, 0, 0, 0]
    ipv4_tail := by decide }
  destinationIp := {
    family := .ipv4
    bytes := #v[192, 0, 2, 20, 0, 0, 0, 0, 0, 0, 0, 0, 0, 0, 0, 0]
    ipv4_tail := by decide }
  protocol := .udp
  sourcePort := 41000
  destinationPort := 443
  payloadBytes := 1200
  arrivalTimeMicros := 0

end PacketPipeline

end UpfPolicy
