/-
UpfPolicy.Application.LedgerTheorems — the decisions are a complete account.

A `Ledger` is what can be known of a pipeline from outside: the tokens and
the last refill of each QER, the counters of each URR, the reports and the
sinks. `Ledger.post` keeps it from the calls and their replies alone. A
decision whose figures before the packet are not those of the ledger is
refused; its figures after the packet are posted only where the terminal
result says that they were committed.

`journal_audited` is the result: the journal of every run is accepted, and
leaves the ledger of the pipeline the run ends in.
-/
import UpfPolicy.Application.CommitTheorems
import UpfPolicy.Application.DeliveryTheorems

namespace UpfPolicy

open Support

/-! ## Ledgers -/

/-- The part of a token state that decisions report. -/
structure TokenLevel where
  tokensBytes : UInt64
  lastRefillMicros : UInt64
  deriving DecidableEq, Repr

def TokenBucketState.level (s : TokenBucketState) : TokenLevel :=
  ⟨s.tokensBytes, s.lastRefillMicros⟩

structure Ledger where
  buckets : Book UInt32 UInt32 TokenLevel := {}
  counters : Book UInt32 UInt32 UsageCounterState := {}
  reports : List String := []
  sinks : Interface → List Packet := fun _ => []

/-- What a pipeline would be seen to hold. -/
def PacketPipeline.ledger (p : PacketPipeline) : Ledger where
  buckets := p.runtime.qerStore.book TokenBucketState.level
  counters := p.runtime.urrStore.book id
  reports := p.reports
  sinks := p.sinkOf

namespace Ledger

/-- The figures of a decision before its packet are those of the ledger,
committed or not. -/
def agrees (l : Ledger) (d : PacketDecision) : Bool :=
  (!d.qer.applicable ||
    decide ((l.buckets.entries d.qer.qerId).map (·.tokensBytes) = some d.qer.tokensBefore)) &&
  (!d.urr.applicable ||
    decide ((l.counters.entries d.urr.urrId).map (fun c => (c.packets, c.payloadBytes))
      = some (d.urr.packetsBefore, d.urr.bytesBefore)))

/-- The token states after a decision. A packet turned away for its size
leaves the refill behind. -/
def postedBuckets (buckets : Book UInt32 UInt32 TokenLevel) (now : UInt64) (d : PacketDecision) :
    Book UInt32 UInt32 TokenLevel :=
  if d.qer.applicable && (d.terminalResult.committed || d.terminalResult == .rateLimited) then
    buckets.enter d.qer.qerId ⟨d.qer.tokensAfter, now⟩
  else buckets

def postedCounters (counters : Book UInt32 UInt32 UsageCounterState) (d : PacketDecision) :
    Book UInt32 UInt32 UsageCounterState :=
  if d.urr.applicable && d.terminalResult.committed then
    let reported := (counters.entries d.urr.urrId).any (·.reportEmitted)
    counters.enter d.urr.urrId
      ⟨d.urr.packetsAfter, d.urr.bytesAfter, reported || d.urr.thresholdReached⟩
  else counters

def postedReports (reports : List String) (d : PacketDecision) : List String :=
  if d.urr.thresholdReached && d.terminalResult.committed then reports ++ [d.urr.reportId]
  else reports

def postDecision (l : Ledger) (now : UInt64) (d : PacketDecision) : Ledger where
  buckets := postedBuckets l.buckets now d
  counters := postedCounters l.counters d
  reports := postedReports l.reports d
  sinks side := l.sinks side ++
    (if d.terminalResult = PacketPipeline.forwardedTo side then d.transformedPacket else none).toList

def postInstall (l : Ledger) (rules : RuleSet) : Ledger :=
  { l with
    buckets := l.buckets.reopened ((rules.qers.map Qer.item).map (Item.map TokenBucketState.level))
    counters := l.counters.reopened ((rules.urrs.map Urr.item).map (Item.map id)) }

/-- Post a call with its reply. -/
def post (l : Ledger) : PipelineCall × PipelineReply → Option Ledger
  | (.install rules, .installed (.ok ())) => some (l.postInstall rules)
  | (.install _, .installed (.error _)) => some l
  | (.process packet _ _, .decided d) =>
    if l.agrees d then some (l.postDecision packet.arrivalTimeMicros d) else none
  | _ => none

/-- Post a journal. -/
def audit (l : Ledger) (entries : List (PipelineCall × PipelineReply)) : Option Ledger :=
  entries.foldlM post l

end Ledger

namespace PacketPipeline

/-! ## The figures before a packet -/

/-- The figures of a decision before its packet are those of the runtime
state. -/
structure Stated (p : PacketPipeline) (d : PacketDecision) : Prop where
  qer : d.qer.applicable = true → ∃ state, p.runtime.qers[d.qer.qerId]? = some state ∧
    d.qer.tokensBefore = state.tokensBytes
  urr : d.urr.applicable = true → ∃ state, p.runtime.urrs[d.urr.urrId]? = some state ∧
    d.urr.packetsBefore = state.packets ∧ d.urr.bytesBefore = state.payloadBytes

section Figures

variable {p p' : PacketPipeline} {packet : Packet} {rules : RuleSet} {winner : Pdr}
  {d : PacketDecision}

theorem Stated.agrees (h : Stated p d) : p.ledger.agrees d = true := by
  rw [Ledger.agrees, Bool.and_eq_true]
  constructor
  · cases happlicable : d.qer.applicable with
    | false => rfl
    | true =>
      obtain ⟨state, hstate, htokens⟩ := h.qer happlicable
      simp [ledger, Store.book, RuntimeState.qerStore, hstate, htokens, TokenBucketState.level]
  · cases happlicable : d.urr.applicable with
    | false => rfl
    | true =>
      obtain ⟨state, hstate, hpackets, hbytes⟩ := h.urr happlicable
      simp [ledger, Store.book, RuntimeState.urrStore, hstate, hpackets, hbytes]

theorem meter_stated (halign : Aligned rules p.runtime) {qer : Qer}
    (hcited : citedQer rules winner = some qer) :
    ∃ state, p.runtime.qers[(p.meter packet qer).decision.qerId]? = some state ∧
      (p.meter packet qer).decision.tokensBefore = state.tokensBytes := by
  have hfacts := evaluateQer_facts qer (p.tokensOf qer) packet.payloadBytes.toUInt64
    packet.arrivalTimeMicros
  rw [← meter] at hfacts
  exact ⟨_, by rw [hfacts.qerId, tokens_held halign hcited], hfacts.tokensBefore⟩

theorem account_stated (halign : Aligned rules p.runtime) {urr : Urr}
    (hcited : citedUrr rules winner = some urr) :
    ∃ state, p.runtime.urrs[(p.account rules packet urr).decision.urrId]? = some state ∧
      (p.account rules packet urr).decision.packetsBefore = state.packets ∧
      (p.account rules packet urr).decision.bytesBefore = state.payloadBytes := by
  have hfacts := evaluateUrr_facts urr (p.usageOf urr) packet.payloadBytes.toUInt64
    rules.sessionId rules.version
  rw [← account] at hfacts
  exact ⟨_, by rw [hfacts.urrId, usage_held halign hcited], hfacts.packetsBefore,
    hfacts.bytesBefore⟩

theorem qerReport_stated (halign : Aligned rules p.runtime)
    (happlicable : (p.qerReport rules packet winner).applicable = true) :
    ∃ state, p.runtime.qers[(p.qerReport rules packet winner).qerId]? = some state ∧
      (p.qerReport rules packet winner).tokensBefore = state.tokensBytes := by
  unfold qerReport at happlicable ⊢
  cases hcited : citedQer rules winner with
  | none => rw [hcited] at happlicable; cases happlicable
  | some qer => exact meter_stated halign hcited

theorem urrReport_stated (halign : Aligned rules p.runtime)
    (happlicable : (p.urrReport rules packet winner).applicable = true) :
    ∃ state, p.runtime.urrs[(p.urrReport rules packet winner).urrId]? = some state ∧
      (p.urrReport rules packet winner).packetsBefore = state.packets ∧
      (p.urrReport rules packet winner).bytesBefore = state.payloadBytes := by
  unfold urrReport at happlicable ⊢
  cases hcited : citedUrr rules winner with
  | none => rw [hcited] at happlicable; cases happlicable
  | some urr => exact account_stated halign hcited

/-- **Every decision states the figures before its packet.** -/
theorem ProcessExit.stated (h : p.WellFormed) (hexit : ProcessExit p packet d p') : Stated p d := by
  have halign : ∀ {rules winner far}, Attempt p packet rules winner far → Aligned rules p.runtime :=
    fun hat => h.aligned_of_rules hat.installed
  cases hexit with
  | rejected _ _ hqer hurr _ => exact ⟨by simp [hqer], by simp [hurr]⟩
  | denied hat _ hcited _ _ _ hqer hurr _ =>
    exact ⟨fun _ => hqer ▸ meter_stated (halign hat) hcited, by simp [hurr]⟩
  | limited hat _ hcited _ _ _ hqer hurr _ _ _ _ =>
    exact ⟨fun _ => hqer ▸ meter_stated (halign hat) hcited, by simp [hurr]⟩
  | overflow hat _ _ hcited _ _ hqer hurr _ =>
    exact ⟨hqer ▸ qerReport_stated (halign hat), fun _ => hurr ▸ account_stated (halign hat) hcited⟩
  | reportsFull hat _ _ hcited _ _ _ _ hqer hurr _ =>
    exact ⟨hqer ▸ qerReport_stated (halign hat), fun _ => hurr ▸ account_stated (halign hat) hcited⟩
  | sinkFull hat _ _ _ _ _ _ hqer hurr _ =>
    exact ⟨hqer ▸ qerReport_stated (halign hat), hurr ▸ urrReport_stated (halign hat)⟩
  | dropped hat _ _ _ _ _ hqer hurr _ _ _ _ =>
    exact ⟨hqer ▸ qerReport_stated (halign hat), hurr ▸ urrReport_stated (halign hat)⟩
  | forwarded hat _ _ _ _ _ _ hqer hurr _ _ _ _ =>
    exact ⟨hqer ▸ qerReport_stated (halign hat), hurr ▸ urrReport_stated (halign hat)⟩

end Figures

/-! ## Posting a decision -/

/-- The ledger after a call is the one before it with the decision posted,
apart from the sinks. -/
structure Posted (p : PacketPipeline) (now : UInt64) (d : PacketDecision) (p' : PacketPipeline) :
    Prop where
  buckets : Ledger.postedBuckets p.ledger.buckets now d = p'.ledger.buckets
  counters : Ledger.postedCounters p.ledger.counters d = p'.ledger.counters
  reports : Ledger.postedReports p.ledger.reports d = p'.ledger.reports

section Posting

variable {p p' : PacketPipeline} {packet : Packet} {rules : RuleSet} {winner : Pdr}
  {d : PacketDecision}

/-- Nothing is posted for a packet that neither was committed nor refilled
its QER. -/
theorem posted_nothing (hresult : d.terminalResult.committed = false)
    (hlimited : d.terminalResult ≠ .rateLimited) (hkept : SameStores p p') (now : UInt64) :
    Posted p now d p' := by
  refine ⟨?_, ?_, ?_⟩
  · simp [Ledger.postedBuckets, hresult, hlimited, ledger, hkept.runtime]
  · simp [Ledger.postedCounters, hresult, ledger, hkept.runtime]
  · simp [Ledger.postedReports, hresult, ledger, hkept.reports]

/-- A token state, from what the decision and the packet say. -/
theorem meter_level {qer : Qer}
    (hlast : (p.meter packet qer).next.fill.last = packet.arrivalTimeMicros.toNat)
    (hafter : (p.meter packet qer).decision.tokensAfter = (p.meter packet qer).next.tokensBytes) :
    (p.meter packet qer).next.level
      = ⟨(p.meter packet qer).decision.tokensAfter, packet.arrivalTimeMicros⟩ := by
  rw [TokenBucketState.level, hafter]
  exact congrArg (TokenLevel.mk _) (UInt64.toNat_inj.mp hlast)

/-- Only the refill is posted for a packet turned away for its size. -/
theorem posted_limited {qer : Qer} (hlimited : Limited p packet qer)
    (hresult : d.terminalResult = .rateLimited) (hqer : d.qer = (p.meter packet qer).decision)
    (hurr : d.urr = {})
    (hruntime : p'.runtime = { p.runtime with
      qers := p.runtime.qers.insert qer.id.value (p.meter packet qer).next })
    (hreports : p'.reports = p.reports) : Posted p packet.arrivalTimeMicros d p' := by
  have hfacts := evaluateQer_facts qer (p.tokensOf qer) packet.payloadBytes.toUInt64
    packet.arrivalTimeMicros
  rw [← meter] at hfacts
  have hstore : p'.runtime.qerStore
      = p.runtime.qerStore.insert qer.id.value (p.meter packet qer).next := by rw [hruntime]; rfl
  refine ⟨?_, ?_, ?_⟩
  · have hlevel := meter_level (congrArg Fill.last hlimited.next) hlimited.after
    simp only [ledger, hstore, Store.book_insert, hlevel]
    simp [Ledger.postedBuckets, hresult, hqer, hfacts.applicable, hfacts.qerId]
  · simp [Ledger.postedCounters, hurr, ledger, hruntime, RuntimeState.urrStore]
  · simp [Ledger.postedReports, hurr, ledger, hreports]

/-- The counters of a counted packet, from what the decision says. -/
theorem account_next {urr : Urr} (hfits : (p.account rules packet urr).overflow = false) :
    (p.account rules packet urr).next
      = ⟨(p.account rules packet urr).decision.packetsAfter,
          (p.account rules packet urr).decision.bytesAfter,
          (p.usageOf urr).reportEmitted ||
            (p.account rules packet urr).decision.thresholdReached⟩ := by
  have hreached := evaluateUrr_thresholdReached urr (p.usageOf urr) packet.payloadBytes.toUInt64
    rules.sessionId rules.version
  rw [← account] at hreached
  cases evaluateUrr_outcome urr (p.usageOf urr) packet.payloadBytes.toUInt64 rules.sessionId
      rules.version with
  | overflow _ hflag _ _ => rw [account, hflag] at hfits; cases hfits
  | counted _ _ _ _ hpackets hbytes _ hemitted _ =>
    rw [← account] at hpackets hbytes hemitted
    rw [hreached, hpackets, hbytes, ← hemitted]

theorem committed_buckets (hadmits : QerAdmits p rules packet winner)
    (hresult : d.terminalResult.committed = true) (hqer : d.qer = p.qerReport rules packet winner)
    (hruntime : p'.runtime = p.committedRuntime rules packet winner) :
    Ledger.postedBuckets p.ledger.buckets packet.arrivalTimeMicros d = p'.ledger.buckets := by
  unfold qerReport at hqer
  cases hcited : citedQer rules winner with
  | none =>
    rw [hcited] at hqer
    simp [Ledger.postedBuckets, hqer, ledger, hruntime, committedRuntime, RuntimeState.qerStore,
      hcited]
  | some qer =>
    rw [hcited] at hqer
    have hfacts := evaluateQer_facts qer (p.tokensOf qer) packet.payloadBytes.toUInt64
      packet.arrivalTimeMicros
    rw [← meter] at hfacts
    have hstore : p'.runtime.qerStore
        = p.runtime.qerStore.insert qer.id.value (p.meter packet qer).next := by
      simp only [hruntime, committedRuntime, hcited]
      rfl
    have hcharged := meter_charged (hadmits qer hcited)
    have hlevel := meter_level (congrArg Fill.last hcharged.next) hcharged.after
    simp only [ledger, hstore, Store.book_insert, hlevel]
    simp [Ledger.postedBuckets, hresult, hqer, hfacts.applicable, hfacts.qerId]

theorem committed_counters (halign : Aligned rules p.runtime)
    (hcounts : UrrAdmits p rules packet winner) (hresult : d.terminalResult.committed = true)
    (hurr : d.urr = p.urrReport rules packet winner)
    (hruntime : p'.runtime = p.committedRuntime rules packet winner) :
    Ledger.postedCounters p.ledger.counters d = p'.ledger.counters := by
  unfold urrReport at hurr
  cases hcited : citedUrr rules winner with
  | none =>
    rw [hcited] at hurr
    simp [Ledger.postedCounters, hurr, ledger, hruntime, committedRuntime, RuntimeState.urrStore,
      hcited]
  | some urr =>
    rw [hcited] at hurr
    have hfacts := evaluateUrr_facts urr (p.usageOf urr) packet.payloadBytes.toUInt64
      rules.sessionId rules.version
    rw [← account] at hfacts
    have hstore : p'.runtime.urrStore
        = p.runtime.urrStore.insert urr.id.value (p.account rules packet urr).next := by
      simp only [hruntime, committedRuntime, hcited]
      rfl
    have hheld : p.runtime.urrStore.entries[urr.id.value]? = some (p.usageOf urr) :=
      usage_held halign hcited
    simp only [ledger, hstore, Store.book_insert, account_next (hcounts urr hcited).1]
    simp [Ledger.postedCounters, hresult, hurr, hfacts.applicable, hfacts.urrId, Store.book, hheld]

theorem committed_reports (hresult : d.terminalResult.committed = true)
    (hurr : d.urr = p.urrReport rules packet winner)
    (hreports : p'.reports = p.reports ++ p.newReports rules packet winner) :
    Ledger.postedReports p.ledger.reports d = p'.ledger.reports := by
  unfold urrReport at hurr
  unfold newReports at hreports
  cases hcited : citedUrr rules winner with
  | none =>
    rw [hcited] at hurr hreports
    simp [Ledger.postedReports, hurr, ledger, hreports]
  | some urr =>
    rw [hcited] at hurr hreports
    have hreached := evaluateUrr_thresholdReached urr (p.usageOf urr) packet.payloadBytes.toUInt64
      rules.sessionId rules.version
    rw [← account] at hreached
    dsimp only at hurr hreports
    rw [Ledger.postedReports, hresult, Bool.and_true, hurr, hreached, ledger, ledger, hreports]
    split <;> simp

/-- **A decision posts what its packet changed.** -/
theorem ProcessExit.posted (h : p.WellFormed) (hexit : ProcessExit p packet d p') :
    Posted p packet.arrivalTimeMicros d p' := by
  cases hexit with
  | rejected hwhy hresult _ _ hkept =>
    refine posted_nothing ?_ ?_ hkept _
    · rw [hresult]
      exact hwhy.not_committed
    · rw [hresult]
      cases hwhy <;> decide
  | @denied _ _ _ qer _ _ _ hdenied hfailure hresult _ _ hkept =>
    refine posted_nothing ?_ (hresult ▸ hfailure) hkept _
    rcases evaluateQer_failure qer (p.tokensOf qer) packet.payloadBytes.toUInt64
        packet.arrivalTimeMicros hdenied with hf | hf | hf <;> rw [hresult, meter, hf] <;> rfl
  | limited _ _ _ hdenied hfailure hresult hqer hurr hruntime hreports _ _ =>
    exact posted_limited (meter_limited hdenied hfailure) hresult hqer hurr hruntime hreports
  | overflow _ _ _ _ _ hresult _ _ hkept =>
    exact posted_nothing (by rw [hresult]; rfl) (by rw [hresult]; decide) hkept _
  | reportsFull _ _ _ _ _ _ _ hresult _ _ hkept =>
    exact posted_nothing (by rw [hresult]; rfl) (by rw [hresult]; decide) hkept _
  | sinkFull _ _ _ _ _ _ hresult _ _ hkept =>
    exact posted_nothing (by rw [hresult]; rfl) (by rw [hresult]; decide) hkept _
  | dropped hat _ hadmits hcounts _ hresult hqer hurr hruntime hreports _ _ =>
    have hcommitted : d.terminalResult.committed = true := by rw [hresult]; rfl
    exact ⟨committed_buckets hadmits hcommitted hqer hruntime,
      committed_counters (h.aligned_of_rules hat.installed) hcounts hcommitted hurr hruntime,
      committed_reports hcommitted hurr hreports⟩
  | forwarded hat _ hadmits hcounts _ _ hresult hqer hurr hruntime hreports _ _ =>
    have hcommitted : d.terminalResult.committed = true := by
      rw [hresult]
      cases packet.ingress <;> rfl
    exact ⟨committed_buckets hadmits hcommitted hqer hruntime,
      committed_counters (h.aligned_of_rules hat.installed) hcounts hcommitted hurr hruntime,
      committed_reports hcommitted hurr hreports⟩

end Posting

/-! ## Runs -/

theorem ledger_new (limits : CapacityLimits) : (new limits).ledger = {} := by
  have hsinks : (new limits).sinkOf = fun _ => [] := by
    funext side
    cases side <;> rfl
  rw [ledger, hsinks]
  exact congrArg₂ (fun buckets counters => (⟨buckets, counters, [], fun _ => []⟩ : Ledger))
    (Store.book_empty _) (Store.book_empty _)

section Runs

variable [InetText] {p p' : PacketPipeline}

/-- **One call is posted by its reply.** -/
theorem WellFormed.ledger_post (h : p.WellFormed) {call : PipelineCall} {reply : PipelineReply}
    (hexec : p.exec call = some (reply, p')) : p.ledger.post (call, reply) = some p'.ledger := by
  have hdelivers := h.delivers hexec
  cases h.exec_outcome hexec with
  | @install rules result hcall hreply houtcome =>
    subst hcall hreply
    cases houtcome with
    | rejected _ hresult hkept =>
      subst hkept
      cases result with
      | ok u => exact absurd rfl hresult
      | error e => rfl
    | accepted hvalid hresult hinstalled =>
      subst hresult hinstalled
      have hqers := Store.book_rebuilt TokenBucketState.level p.runtime.qerStore
        hvalid.qerIds.qerKeys
      have hurrs := Store.book_rebuilt id p.runtime.urrStore hvalid.urrIds.urrKeys
      exact congrArg₂ (fun buckets counters =>
        some (⟨buckets, counters, p.reports, p.sinkOf⟩ : Ledger)) hqers.symm hurrs.symm
  | @process packet runId scenarioId d hcall hreply _ hexit =>
    subst hcall hreply
    have hposted := hexit.posted h
    have hsinks : (p.ledger.postDecision packet.arrivalTimeMicros d).sinks = p'.ledger.sinks := by
      funext side
      cases side with
      | n3 => exact hdelivers.n3.symm
      | n6 => exact hdelivers.n6.symm
    rw [Ledger.post, if_pos (hexit.stated h).agrees, Ledger.postDecision, hposted.buckets,
      hposted.counters, hposted.reports]
    rw [Ledger.postDecision] at hsinks
    exact congrArg (fun sinks => some { p'.ledger with sinks }) hsinks

/-- **The decisions are a complete account.** For every sequence of calls on
a new pipeline the journal of calls and replies passes the audit, figure by
figure, and leaves the ledger of the pipeline. -/
theorem journal_audited (limits : CapacityLimits) (calls : List PipelineCall) :
    ∃ es p, run PacketPipeline.exec (new limits) calls = some (es, p) ∧
      Ledger.audit {} (journal es) = some p.ledger := by
  obtain ⟨es, p, hrun⟩ := (wellFormed_new limits).run_total calls
  refine ⟨es, p, hrun, ?_⟩
  rw [Ledger.audit, ← ledger_new limits]
  exact (recorded_of_run hrun).posted (wellFormed_new limits)
    (fun _ _ _ _ hs hexec => hs.exec hexec) fun _ _ _ _ hs hexec => hs.ledger_post hexec

end Runs

end PacketPipeline

end UpfPolicy
