/-
UpfPolicy.Application.ArithmeticTheorems — which 64-bit overflows a run can
reach.

A packet is committed at most once for each retained decision and has less
than 2^32 bytes, so a usage counter is bounded by the number of decisions
(`UsageBounded`). With room for at most 2^32 results no usage counter can
overflow, whatever is installed and processed, and the overflow branch of
`accountUrr` is never taken: ARITHMETIC_ERROR is the answer of an open QER
whose clock runs backwards or whose refill does not fit 64 bits, and of
nothing else (`arithmeticError_iff`).
-/
import UpfPolicy.Application.ObservationTheorems

namespace UpfPolicy

open Support

namespace PacketPipeline

/-- The largest payload. -/
def maxPayload : Nat := 4294967295

theorem payload_le (packet : Packet) : packet.payloadBytes.toNat ≤ maxPayload :=
  Nat.le_of_lt_succ packet.payloadBytes.toNat_lt

/-- The counters are bounded by the number of retained decisions. -/
def UsageBounded (p : PacketPipeline) : Prop :=
  ∀ (id : UInt32) state, p.runtime.urrs[id]? = some state →
    state.packets.toNat ≤ p.decisions.length ∧
      state.payloadBytes.toNat ≤ state.packets.toNat * maxPayload

theorem usageBounded_new (limits : CapacityLimits) : UsageBounded (new limits) := by
  intro id state h
  simp [new] at h

section Step

variable {p p' : PacketPipeline}

/-- Counters that were there before, and no fewer decisions. -/
theorem UsageBounded.keep (h : p.UsageBounded) (hurrs : p'.runtime.urrs = p.runtime.urrs)
    (hdecisions : p.decisions.length ≤ p'.decisions.length) : p'.UsageBounded := by
  intro id state hstate
  rw [hurrs] at hstate
  obtain ⟨hpackets, hbytes⟩ := h id state hstate
  exact ⟨Nat.le_trans hpackets hdecisions, hbytes⟩

/-- An `install` keeps counters or starts them at zero. -/
theorem UsageBounded.install {rules : RuleSet} {result : Except String Unit} (h : p.UsageBounded)
    (houtcome : InstallOutcome p rules result p') : p'.UsageBounded := by
  cases houtcome with
  | rejected _ _ hkept => rw [hkept]; exact h
  | accepted hvalid _ hinstalled =>
    subst hinstalled
    intro id state hstate
    have hmem : id ∈ (p.runtime.urrStore.rebuilt (rules.urrs.map Urr.item)).entries :=
      Std.ExtTreeMap.mem_iff_isSome_getElem?.mpr (by
        rw [show (p.runtime.urrStore.rebuilt (rules.urrs.map Urr.item)).entries[id]? = some state
          from hstate]
        rfl)
    obtain ⟨item, hitem, rfl⟩ := List.mem_map.mp ((mem_rebuild hvalid.urrIds.urrKeys id).mp hmem)
    have hentry := Store.entry_rebuilt p.runtime.urrStore hvalid.urrIds.urrKeys hitem
    have hcarried : p.runtime.urrStore.carried item = state :=
      Option.some.inj (hentry.symm.trans hstate)
    rcases p.runtime.urrStore.carried_cases item with ⟨hold, -⟩ | hfresh
    · rw [hcarried] at hold
      exact h item.key state hold
    · obtain ⟨urr, -, rfl⟩ := List.mem_map.mp hitem
      rw [hcarried] at hfresh
      subst hfresh
      exact ⟨Nat.zero_le _, Nat.zero_le _⟩

/-- A committed packet is counted once, and so is its decision. -/
theorem UsageBounded.commit {rules : RuleSet} {packet : Packet} {winner : Pdr} (h : p.UsageBounded)
    (haligned : Aligned rules p.runtime) (hcounts : UrrAdmits p rules packet winner)
    (hruntime : p'.runtime = p.committedRuntime rules packet winner)
    (hdecisions : p'.decisions.length = p.decisions.length + 1) : p'.UsageBounded := by
  have hurrs : p'.runtime.urrs = (p.committedRuntime rules packet winner).urrs :=
    congrArg RuntimeState.urrs hruntime
  cases hcited : citedUrr rules winner with
  | none =>
    rw [committedRuntime, hcited] at hurrs
    exact h.keep hurrs (by omega)
  | some urr =>
    rw [committedRuntime, hcited] at hurrs
    intro id state hstate
    rw [hurrs] at hstate
    by_cases hid : urr.id.value = id
    · subst hid
      rw [Std.ExtTreeMap.getElem?_insert_self] at hstate
      cases hstate
      obtain ⟨hpackets, hbytes⟩ := h urr.id.value _ (usage_held haligned hcited)
      have hpayload := payload_le packet
      cases evaluateUrr_outcome urr (p.usageOf urr) packet.payloadBytes.toUInt64 rules.sessionId
          rules.version with
      | overflow _ hflag => rw [← account, (hcounts urr hcited).1] at hflag; cases hflag
      | counted _ _ hnextPackets hnextBytes =>
        rw [← account] at hnextPackets hnextBytes
        rw [payload_toNat] at hnextBytes
        rw [hnextPackets, hnextBytes, Nat.add_mul]
        omega
    · rw [getElem?_insert_of_ne _ _ hid] at hstate
      obtain ⟨hpackets, hbytes⟩ := h id state hstate
      exact ⟨by omega, hbytes⟩

variable [InetText]

/-- The decisions after a call: one more where there is room for it. -/
theorem decisions_answered {packet : Packet} {runId scenarioId : String} {reply : PipelineReply}
    (h : Answered p (.process packet runId scenarioId) reply p') :
    p.decisions.length ≤ p'.decisions.length ∧
      (p.decisions.length < p.limits.results.toNat →
        p'.decisions.length = p.decisions.length + 1) := by
  cases h with
  | installed hcall => cases hcall
  | full _ hfull _ hafter =>
    subst hafter
    exact ⟨Nat.le_refl _, fun hroom => absurd hroom (Nat.not_lt.mpr hfull)⟩
  | settled _ _ _ hafter =>
    rw [hafter, settle, retain_decisions]
    simp

/-- **Every call keeps the counters bounded.** -/
theorem UsageBounded.exec (h : p.UsageBounded) (hwf : p.WellFormed) {call : PipelineCall}
    {reply : PipelineReply} (hexec : p.exec call = some (reply, p')) : p'.UsageBounded := by
  have hanswered := hwf.answered hexec
  cases hwf.exec_outcome hexec with
  | install _ _ houtcome => exact h.install houtcome
  | @process packet runId scenarioId d hcall hreply _ hexit =>
    subst hcall
    obtain ⟨hmore, hone⟩ := decisions_answered hanswered
    cases hexit.effect with
    | nothing _ hruntime _ => exact h.keep (congrArg RuntimeState.urrs hruntime) hmore
    | refill _ _ _ _ _ hruntime _ => exact h.keep (by rw [hruntime]) hmore
    | commit _ hat _ hcounts hruntime _ =>
      exact h.commit (hwf.aligned_of_rules hat.installed) hcounts hruntime (hone hat.room)

end Step

/-! ## Reachable pipelines -/

/-- The bounds of a reachable pipeline. -/
structure Counted (limits : CapacityLimits) (p : PacketPipeline) : Prop where
  within : WithinLimits limits p
  usage : p.UsageBounded

theorem counted_of_reachable [InetText] {limits : CapacityLimits} {p : PacketPipeline}
    (h : Reachable exec (new limits) p) : Counted limits p :=
  h.invariant ⟨⟨wellFormed_new limits, rfl, bounded_new limits⟩, usageBounded_new limits⟩
    fun _ _ _ _ hs hexec => ⟨hs.within.step hexec, hs.usage.exec hs.within.wellFormed hexec⟩

section Overflow

variable {limits : CapacityLimits} {p : PacketPipeline} {packet : Packet} {rules : RuleSet}
  {winner : Pdr} {far : Far}

/-- **No usage counter overflows** with room for at most 2^32 results. -/
theorem Counted.not_overflow (h : Counted limits p) (hresults : limits.results.toNat ≤ 2 ^ 32)
    (hat : Attempt p packet rules winner far) {urr : Urr} (hcited : citedUrr rules winner = some urr) :
    (p.account rules packet urr).overflow = false := by
  have hroom := hat.room
  rw [h.within.limits_eq] at hroom
  have haligned := h.within.wellFormed.aligned_of_rules hat.installed
  obtain ⟨hpackets, hbytes⟩ := h.usage urr.id.value _ (usage_held haligned hcited)
  have hpayload := payload_le packet
  have hproduct : (p.usageOf urr).packets.toNat * maxPayload ≤ (2 ^ 32 - 1) * maxPayload :=
    Nat.mul_le_mul_right _ (by omega)
  rw [← Bool.not_eq_true, account, evaluateUrr_overflow_iff, UrrOverflows, payload_toNat]
  simp only [maxPayload] at hbytes hpayload hproduct
  omega

/-- Why an open QER does not get as far as its refill. -/
theorem not_refills_iff {qer : Qer} (hopen : qer.gate = .opened) (current : TokenBucketState)
    (now : UInt64) :
    ¬ QerRefills qer current now ↔ now < current.lastRefillMicros ∨
      2 ^ 64 ≤ (now.toNat - current.lastRefillMicros.toNat) * qer.rateBitsPerSecond.toNat
        + current.remainderBitMicros.toNat := by
  rw [← accrued_fill, UInt64.lt_iff_toNat_lt]
  constructor
  · intro h
    by_contra hneither
    rw [not_or, Nat.not_lt, Nat.not_le] at hneither
    exact h ⟨hopen, hneither.1, hneither.2⟩
  · rintro (hback | hbig) hrefills
    · exact Nat.not_lt.mpr hrefills.forward hback
    · exact Nat.not_lt.mpr hbig hrefills.fits

/-- The clock of an open QER runs backwards at the packet, or its refill
does not fit 64 bits. -/
structure QerArithmetic (p : PacketPipeline) (packet : Packet) (qer : Qer) : Prop where
  opened : qer.gate = .opened
  refuses : packet.arrivalTimeMicros < (p.tokensOf qer).lastRefillMicros ∨
    2 ^ 64 ≤ (packet.arrivalTimeMicros.toNat - (p.tokensOf qer).lastRefillMicros.toNat)
      * qer.rateBitsPerSecond.toNat + (p.tokensOf qer).remainderBitMicros.toNat

theorem meter_arithmetic_iff {qer : Qer} :
    ((p.meter packet qer).decision.allowed = false ∧
        (p.meter packet qer).failure = .arithmeticError) ↔ QerArithmetic p packet qer := by
  cases evaluateQer_outcome qer (p.tokensOf qer) packet.payloadBytes.toUInt64
      packet.arrivalTimeMicros with
  | closed hgate _ _ hf =>
    rw [meter, hf]
    refine iff_of_false (fun h => by cases h.2) fun h => ?_
    rw [h.opened] at hgate
    cases hgate
  | arithmetic hgate hrefuse _ ha hf =>
    rw [meter, ha, hf]
    exact iff_of_true ⟨rfl, rfl⟩ ⟨hgate, (not_refills_iff hgate _ _).mp hrefuse⟩
  | limited hrefill _ _ _ hf =>
    rw [meter, hf]
    exact iff_of_false (fun h => by cases h.2)
      fun h => (not_refills_iff h.opened _ _).mpr h.refuses hrefill
  | charged hrefill _ _ ha =>
    rw [meter, ha]
    exact iff_of_false (fun h => by cases h.1)
      fun h => (not_refills_iff h.opened _ _).mpr h.refuses hrefill

end Overflow

/-- **Where ARITHMETIC_ERROR comes from.** With room for at most 2^32
results, in every reachable state: a packet is answered so exactly when it
gets as far as an open QER whose clock it would turn back, or whose refill
it would overflow. No usage counter ever overflows. -/
theorem arithmeticError_iff [InetText] {limits : CapacityLimits}
    (hresults : limits.results.toNat ≤ 2 ^ 32) {p : PacketPipeline}
    (hreach : Reachable exec (new limits) p) (packet : Packet) (runId scenarioId : String) :
    ∃ d p', p.process packet runId scenarioId = some (d, p') ∧
      (d.terminalResult = .arithmeticError ↔ ∃ rules winner far qer,
        Attempt p packet rules winner far ∧ citedQer rules winner = some qer ∧
          QerArithmetic p packet qer) := by
  have hcounted := counted_of_reachable hreach
  have hwf := hcounted.within.wellFormed
  obtain ⟨d, p', hprocess, -, hexit⟩ := hwf.process_exit packet runId scenarioId
  refine ⟨d, p', hprocess, ?_⟩
  -- an admitted packet does not meet the condition
  have hadmitted : ∀ {rules winner far}, Attempt p packet rules winner far →
      QerAdmits p rules packet winner → ¬ ∃ rules winner far qer, Attempt p packet rules winner far ∧
        citedQer rules winner = some qer ∧ QerArithmetic p packet qer := by
    rintro rules winner far hat hadmits ⟨rules', winner', far', qer, hat', hcited, harith⟩
    obtain ⟨rfl, rfl, rfl⟩ := hat.unique hwf hat'
    have hallowed := hadmits qer hcited
    rw [(meter_arithmetic_iff.mpr harith).1] at hallowed
    cases hallowed
  cases hexit with
  | rejected hwhy hresult =>
    refine iff_of_false ?_ ?_
    · rw [hresult]
      cases hwhy <;> decide
    · rintro ⟨_, _, _, _, hat, -⟩
      exact hwhy.not_attempt hat
  | denied hat _ hcited hdenied _ hresult =>
    rw [hresult]
    constructor
    · intro hfailure
      exact ⟨_, _, _, _, hat, hcited, meter_arithmetic_iff.mp ⟨hdenied, hfailure⟩⟩
    · rintro ⟨_, _, _, qer', hat', hcited', harith⟩
      obtain ⟨rfl, rfl, rfl⟩ := hat.unique hwf hat'
      cases hcited.symm.trans hcited'
      exact (meter_arithmetic_iff.mpr harith).2
  | limited hat _ hcited _ hfailure hresult =>
    refine iff_of_false (by rw [hresult]; decide) ?_
    rintro ⟨_, _, _, qer', hat', hcited', harith⟩
    obtain ⟨rfl, rfl, rfl⟩ := hat.unique hwf hat'
    cases hcited.symm.trans hcited'
    rw [(meter_arithmetic_iff.mpr harith).2] at hfailure
    cases hfailure
  | overflow hat _ _ hcited hover =>
    rw [hcounted.not_overflow hresults hat hcited] at hover
    cases hover
  | reportsFull hat _ hadmits _ _ _ _ hresult =>
    exact iff_of_false (by rw [hresult]; decide) (hadmitted hat hadmits)
  | sinkFull hat _ hadmits _ _ _ hresult =>
    exact iff_of_false (by rw [hresult]; decide) (hadmitted hat hadmits)
  | dropped hat _ hadmits _ _ hresult =>
    exact iff_of_false (by rw [hresult]; decide) (hadmitted hat hadmits)
  | forwarded hat _ hadmits _ _ _ hresult =>
    refine iff_of_false ?_ (hadmitted hat hadmits)
    rw [hresult]
    generalize packet.ingress.opposite = out
    cases out <;> decide

/-- The uplink packet of the test builders at a time of the wall clock. -/
def wallClockPacket : Packet := { uplinkPacket with arrivalTimeMicros := 1700000000000000 }

/-- Under the default limits, the refill of the first QER since time 0 does
not fit. -/
theorem arithmeticError_iff_wallClock :
    ∃ d p', @process dottedText ((new {}).install basicRules).2 wallClockPacket "r" "s" = some (d, p') ∧
      d.terminalResult = .arithmeticError ∧ ∃ rules winner far qer,
        Attempt ((new {}).install basicRules).2 wallClockPacket rules winner far ∧
          citedQer rules winner = some qer ∧
          QerArithmetic ((new {}).install basicRules).2 wallClockPacket qer := by
  have hreach : Reachable (@exec dottedText) (new {}) ((new {}).install basicRules).2 :=
    ⟨[.install basicRules], _, rfl⟩
  obtain ⟨d, p', hprocess, hiff⟩ :=
    @arithmeticError_iff dottedText {} (by decide) _ hreach wallClockPacket "r" "s"
  have hresult : (@process dottedText ((new {}).install basicRules).2 wallClockPacket "r" "s").map
      (·.1.terminalResult) = some .arithmeticError := by decide +kernel
  rw [hprocess] at hresult
  have harithmetic := Option.some.inj hresult
  exact ⟨d, p', hprocess, harithmetic, hiff.mp harithmetic⟩

end PacketPipeline

end UpfPolicy
