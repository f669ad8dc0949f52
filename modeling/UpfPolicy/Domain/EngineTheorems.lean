/-
UpfPolicy.Domain.EngineTheorems — what the three evaluations compute.

`evaluateQer_outcome` says everything `evaluateQer` can return: the gate
is closed, the clock or the 64-bit arithmetic refuses, or the bucket is
refilled exactly as the abstract bucket of `Support.TokenBucket` and the
packet is charged or turned away. `evaluateUrr_outcome` does the same for
`evaluateUrr`: either a counter would overflow and nothing moves, or both
counters advance by unbounded addition. Callers cite these two and never
unfold the evaluations.
-/
import UpfPolicy.Domain.Engine
import UpfPolicy.Support.TokenBucket

namespace UpfPolicy

open Support

/-! ## QER -/

/-- The bucket a QER describes; a token is a byte, a tick a microsecond. -/
def Qer.bucket (qer : Qer) : Bucket where
  capacity := qer.burstBytes.toNat
  rate := qer.rateBitsPerSecond.toNat
  unit := 8000000
  unit_pos := by decide

/-- The contents of a token state. -/
def TokenBucketState.fill (s : TokenBucketState) : Fill :=
  ⟨s.tokensBytes.toNat, s.lastRefillMicros.toNat, s.remainderBitMicros.toNat⟩

theorem accrued_fill (qer : Qer) (current : TokenBucketState) (now : Nat) :
    qer.bucket.accrued current.fill now
      = (now - current.lastRefillMicros.toNat) * qer.rateBitsPerSecond.toNat
        + current.remainderBitMicros.toNat := rfl

/-- `evaluateQer` gets as far as the refill: the gate is open, time does
not run backwards and the numerator fits 64 bits. -/
structure QerRefills (qer : Qer) (current : TokenBucketState) (nowMicros : UInt64) : Prop where
  opened : qer.gate = .opened
  forward : current.fill.last ≤ nowMicros.toNat
  fits : qer.bucket.accrued current.fill nowMicros.toNat < 2 ^ 64

/-- Every return of `evaluateQer`. -/
inductive QerOutcome (qer : Qer) (current : TokenBucketState) (packetBytes nowMicros : UInt64)
    (e : QerEvaluation) : Prop where
  | closed (hgate : qer.gate = .closed) (hnext : e.next = current)
      (hallowed : e.decision.allowed = false) (hfailure : e.failure = .gateClosed)
      (hafter : e.decision.tokensAfter = current.tokensBytes)
  | arithmetic (hgate : qer.gate = .opened) (hrefuse : ¬ QerRefills qer current nowMicros)
      (hnext : e.next = current) (hallowed : e.decision.allowed = false)
      (hfailure : e.failure = .arithmeticError)
      (hafter : e.decision.tokensAfter = current.tokensBytes)
  | limited (hrefill : QerRefills qer current nowMicros)
      (hshort : qer.bucket.level current.fill nowMicros.toNat < packetBytes.toNat)
      (hnext : e.next.fill = qer.bucket.refill current.fill nowMicros.toNat)
      (hallowed : e.decision.allowed = false) (hfailure : e.failure = .rateLimited)
      (hafter : e.decision.tokensAfter = e.next.tokensBytes)
  | charged (hrefill : QerRefills qer current nowMicros)
      (henough : packetBytes.toNat ≤ qer.bucket.level current.fill nowMicros.toNat)
      (hnext : e.next.fill
        = (qer.bucket.refill current.fill nowMicros.toNat).spend packetBytes.toNat)
      (hallowed : e.decision.allowed = true)
      (hafter : e.decision.tokensAfter = e.next.tokensBytes)

theorem stdMin_toNat (a b : UInt64) : (stdMin a b).toNat = min a.toNat b.toNat := by
  unfold stdMin
  split
  · rename_i h
    rw [UInt64.lt_iff_toNat_lt] at h
    omega
  · rename_i h
    rw [UInt64.lt_iff_toNat_lt] at h
    omega

/-- `qer.burstBytes > current.tokensBytes ? … : 0` is the room of the bucket. -/
theorem qerRoom_toNat (burst tokens : UInt64) :
    (if burst > tokens then burst - tokens else 0).toNat = burst.toNat - tokens.toNat := by
  split
  · rename_i h
    rw [gt_iff_lt, UInt64.lt_iff_toNat_lt] at h
    rw [UInt64.toNat_sub_of_le _ _ (by rw [UInt64.le_iff_toNat_le]; omega)]
  · rename_i h
    rw [gt_iff_lt, UInt64.lt_iff_toNat_lt] at h
    rw [UInt64.toNat_zero]
    omega

theorem toNat_microUnit : (8000000 : UInt64).toNat = 8000000 := by decide

/-- The room and the capped addition of the source are the level of the
bucket, and stay below 2^64. -/
theorem qerLevel_toNat (qer : Qer) (current : TokenBucketState) (numerator nowMicros : UInt64)
    (hnum : numerator.toNat = qer.bucket.accrued current.fill nowMicros.toNat) :
    (current.tokensBytes +
        stdMin (if qer.burstBytes > current.tokensBytes then qer.burstBytes - current.tokensBytes else 0)
          (numerator / 8000000)).toNat
      = qer.bucket.level current.fill nowMicros.toNat := by
  have hburst := qer.burstBytes.toNat_lt
  have htokens := current.tokensBytes.toNat_lt
  rw [UInt64.toNat_add, stdMin_toNat, qerRoom_toNat, UInt64.toNat_div, hnum, toNat_microUnit]
  exact Nat.mod_eq_of_lt (by omega)

theorem qerRemainder_toNat (qer : Qer) (current : TokenBucketState) (numerator nowMicros : UInt64)
    (hnum : numerator.toNat = qer.bucket.accrued current.fill nowMicros.toNat) :
    (numerator % 8000000).toNat
      = qer.bucket.accrued current.fill nowMicros.toNat % qer.bucket.unit := by
  rw [UInt64.toNat_mod, hnum, toNat_microUnit, Qer.bucket]

theorem qerRefillAndCharge_outcome (qer : Qer) (current : TokenBucketState)
    (packetBytes nowMicros numerator : UInt64) (hrefill : QerRefills qer current nowMicros)
    (hnum : numerator.toNat = qer.bucket.accrued current.fill nowMicros.toNat) :
    QerOutcome qer current packetBytes nowMicros
      (qerRefillAndCharge qer current packetBytes nowMicros numerator) := by
  have hlevel := qerLevel_toNat qer current numerator nowMicros hnum
  have hrem := qerRemainder_toNat qer current numerator nowMicros hnum
  unfold qerRefillAndCharge
  dsimp only
  generalize current.tokensBytes + stdMin _ (numerator / 8000000) = tokens at hlevel ⊢
  split
  · rename_i hshort
    rw [gt_iff_lt, UInt64.lt_iff_toNat_lt, hlevel] at hshort
    refine .limited hrefill hshort ?_ rfl rfl rfl
    rw [TokenBucketState.fill, Bucket.refill, hlevel, hrem]
  · rename_i henough
    rw [gt_iff_lt, UInt64.lt_iff_toNat_lt, hlevel, Nat.not_lt] at henough
    have hle : packetBytes ≤ tokens := by rw [UInt64.le_iff_toNat_le, hlevel]; exact henough
    refine .charged hrefill henough ?_ rfl rfl
    rw [TokenBucketState.fill, Bucket.refill, Fill.spend, UInt64.toNat_sub_of_le _ _ hle, hlevel,
      hrem]

/-- The numerator is computed exactly, and refused exactly when it does not
fit 64 bits. -/
theorem qerNumerator_spec (qer : Qer) (current : TokenBucketState) (nowMicros : UInt64)
    (hle : current.lastRefillMicros ≤ nowMicros) :
    (qerNumerator qer current nowMicros = none ∧
        2 ^ 64 ≤ qer.bucket.accrued current.fill nowMicros.toNat) ∨
      ∃ numerator, qerNumerator qer current nowMicros = some numerator ∧
        numerator.toNat = qer.bucket.accrued current.fill nowMicros.toNat := by
  have helapsed := UInt64.toNat_sub_of_le _ _ hle
  rw [accrued_fill, qerNumerator]
  cases hmul : checkedMultiply (nowMicros - current.lastRefillMicros) qer.rateBitsPerSecond with
  | none =>
    rw [checkedMultiply_eq_none, helapsed] at hmul
    exact Or.inl ⟨rfl, Nat.le_trans hmul (Nat.le_add_right _ _)⟩
  | some product =>
    have hproduct := checkedMultiply_toNat hmul
    rw [helapsed] at hproduct
    rw [Option.bind_some, ← hproduct]
    cases hadd : checkedAdd product current.remainderBitMicros with
    | none => exact Or.inl ⟨rfl, checkedAdd_eq_none.mp hadd⟩
    | some numerator => exact Or.inr ⟨numerator, rfl, checkedAdd_toNat hadd⟩

/-- **Everything `evaluateQer` can return.** -/
theorem evaluateQer_outcome (qer : Qer) (current : TokenBucketState)
    (packetBytes nowMicros : UInt64) :
    QerOutcome qer current packetBytes nowMicros
      (evaluateQer qer current packetBytes nowMicros) := by
  unfold evaluateQer
  by_cases hgate : qer.gate = .closed
  · rw [if_pos hgate]
    exact .closed hgate rfl rfl rfl rfl
  · rw [if_neg hgate]
    have hopen : qer.gate = .opened := by cases h : qer.gate <;> simp_all
    have refuse : ∀ h : ¬ QerRefills qer current nowMicros,
        QerOutcome qer current packetBytes nowMicros
          (qerArithmeticError qer current packetBytes) :=
      fun h => .arithmetic hopen h rfl rfl rfl rfl
    by_cases hback : nowMicros < current.lastRefillMicros
    · rw [if_pos hback]
      exact refuse fun h => Nat.not_le.mpr (UInt64.lt_iff_toNat_lt.mp hback) h.forward
    · rw [if_neg hback]
      have hle : current.lastRefillMicros ≤ nowMicros := UInt64.not_lt.mp hback
      rcases qerNumerator_spec qer current nowMicros hle with ⟨hnone, hbig⟩ | ⟨numerator, hsome, hnum⟩
      · rw [hnone]
        exact refuse fun h => Nat.not_le.mpr h.fits hbig
      · rw [hsome]
        have hfits : qer.bucket.accrued current.fill nowMicros.toNat < 2 ^ 64 :=
          hnum ▸ numerator.toNat_lt
        exact qerRefillAndCharge_outcome qer current packetBytes nowMicros numerator
          ⟨hopen, UInt64.le_iff_toNat_le.mp hle, hfits⟩ hnum

/-- The facts that are the same in every return of `evaluateQer`. -/
structure QerFacts (qer : Qer) (current : TokenBucketState) (d : QerDecision) : Prop where
  applicable : d.applicable = true
  qerId : d.qerId = qer.id.value
  tokensBefore : d.tokensBefore = current.tokensBytes

theorem qerRefillAndCharge_facts (qer : Qer) (current : TokenBucketState)
    (packetBytes nowMicros numerator : UInt64) :
    QerFacts qer current
      (qerRefillAndCharge qer current packetBytes nowMicros numerator).decision := by
  unfold qerRefillAndCharge
  dsimp only
  generalize current.tokensBytes + stdMin _ (numerator / 8000000) = tokens
  split
  · exact ⟨rfl, rfl, rfl⟩
  · exact ⟨rfl, rfl, rfl⟩

theorem evaluateQer_facts (qer : Qer) (current : TokenBucketState)
    (packetBytes nowMicros : UInt64) :
    QerFacts qer current (evaluateQer qer current packetBytes nowMicros).decision := by
  unfold evaluateQer
  by_cases hgate : qer.gate = .closed
  · rw [if_pos hgate]
    exact ⟨rfl, rfl, rfl⟩
  · rw [if_neg hgate]
    by_cases hback : nowMicros < current.lastRefillMicros
    · rw [if_pos hback]
      exact ⟨rfl, rfl, rfl⟩
    · rw [if_neg hback]
      cases qerNumerator qer current nowMicros with
      | none => exact ⟨rfl, rfl, rfl⟩
      | some numerator => exact qerRefillAndCharge_facts _ _ _ _ _

/-- A packet is admitted exactly when the bucket refills to its size. -/
theorem evaluateQer_allowed_iff (qer : Qer) (current : TokenBucketState)
    (packetBytes nowMicros : UInt64) :
    (evaluateQer qer current packetBytes nowMicros).decision.allowed = true ↔
      QerRefills qer current nowMicros ∧
        packetBytes.toNat ≤ qer.bucket.level current.fill nowMicros.toNat := by
  cases evaluateQer_outcome qer current packetBytes nowMicros with
  | closed hgate _ ha _ _ =>
    rw [ha]
    refine ⟨fun h => (by cases h), fun h => ?_⟩
    rw [h.1.opened] at hgate
    cases hgate
  | arithmetic _ hrefuse _ ha _ _ =>
    rw [ha]
    exact ⟨fun h => (by cases h), fun h => absurd h.1 hrefuse⟩
  | limited _ hshort _ ha _ _ =>
    rw [ha]
    exact ⟨fun h => (by cases h), fun h => absurd h.2 (Nat.not_le.mpr hshort)⟩
  | charged hrefill henough _ ha _ => exact ⟨fun _ => ⟨hrefill, henough⟩, fun _ => ha⟩

/-- A denied packet is never reported with the committed kind of failure. -/
theorem evaluateQer_failure (qer : Qer) (current : TokenBucketState)
    (packetBytes nowMicros : UInt64)
    (h : (evaluateQer qer current packetBytes nowMicros).decision.allowed = false) :
    (evaluateQer qer current packetBytes nowMicros).failure = .gateClosed ∨
      (evaluateQer qer current packetBytes nowMicros).failure = .arithmeticError ∨
      (evaluateQer qer current packetBytes nowMicros).failure = .rateLimited := by
  cases evaluateQer_outcome qer current packetBytes nowMicros with
  | closed _ _ _ hf _ => exact Or.inl hf
  | arithmetic _ _ _ _ hf _ => exact Or.inr (Or.inl hf)
  | limited _ _ _ _ hf _ => exact Or.inr (Or.inr hf)
  | charged _ _ _ ha _ => rw [h] at ha; cases ha

/-! ## URR -/

/-- A counter of the URR would pass 64 bits. -/
def UrrOverflows (current : UsageCounterState) (payloadBytes : UInt64) : Prop :=
  2 ^ 64 ≤ current.packets.toNat + 1 ∨
    2 ^ 64 ≤ current.payloadBytes.toNat + payloadBytes.toNat

/-- The cumulative bytes reach the threshold and no report was emitted. -/
def UrrReportDue (urr : Urr) (current : UsageCounterState) (payloadBytes : UInt64) : Prop :=
  current.reportEmitted = false ∧
    urr.volumeThresholdBytes.toNat ≤ current.payloadBytes.toNat + payloadBytes.toNat

/-- Every return of `evaluateUrr`. -/
inductive UrrOutcome (urr : Urr) (current : UsageCounterState) (payloadBytes : UInt64)
    (sessionId : String) (rulesetVersion : UInt64) (e : UrrEvaluation) : Prop where
  | overflow (hover : UrrOverflows current payloadBytes) (hflag : e.overflow = true)
      (hnext : e.next = current) (hreport : e.reportGenerated = false)
  | counted (hfits : ¬ UrrOverflows current payloadBytes) (hflag : e.overflow = false)
      (hpackets : e.next.packets.toNat = current.packets.toNat + 1)
      (hbytes : e.next.payloadBytes.toNat = current.payloadBytes.toNat + payloadBytes.toNat)
      (hafterPackets : e.decision.packetsAfter = e.next.packets)
      (hafterBytes : e.decision.bytesAfter = e.next.payloadBytes)
      (hreport : e.reportGenerated = true ↔ UrrReportDue urr current payloadBytes)
      (hemitted : e.next.reportEmitted = (current.reportEmitted || e.reportGenerated))
      (hid : e.reportGenerated = true → e.decision.reportId
        = usageReportId sessionId urr.id.value urr.generation rulesetVersion)

/-- **Everything `evaluateUrr` can return.** -/
theorem evaluateUrr_outcome (urr : Urr) (current : UsageCounterState) (payloadBytes : UInt64)
    (sessionId : String) (rulesetVersion : UInt64) :
    UrrOutcome urr current payloadBytes sessionId rulesetVersion
      (evaluateUrr urr current payloadBytes sessionId rulesetVersion) := by
  unfold evaluateUrr
  dsimp only
  split
  · rename_i packets bytes hp hb
    have hpackets := checkedAdd_toNat hp
    have hbytes := checkedAdd_toNat hb
    have hfits : ¬ UrrOverflows current payloadBytes := by
      have h1 := packets.toNat_lt
      have h2 := bytes.toNat_lt
      rw [hpackets] at h1
      rw [hbytes] at h2
      rintro (h | h)
      · exact Nat.not_lt.mpr h h1
      · exact Nat.not_lt.mpr h h2
    split
    · rename_i hdue
      have hdue' : UrrReportDue urr current payloadBytes := by
        refine ⟨by simpa using hdue.1, ?_⟩
        rw [← hbytes]; exact UInt64.le_iff_toNat_le.mp hdue.2
      exact .counted hfits rfl hpackets hbytes rfl rfl ⟨fun _ => hdue', fun _ => rfl⟩
        (by simp) (fun _ => rfl)
    · rename_i hnot
      have hnot' : ¬ UrrReportDue urr current payloadBytes := by
        rintro ⟨hemit, hthr⟩
        refine hnot ⟨by simp [hemit], ?_⟩
        rw [ge_iff_le, UInt64.le_iff_toNat_le, hbytes]; exact hthr
      exact .counted hfits rfl hpackets hbytes rfl rfl
        ⟨fun h => absurd h Bool.false_ne_true, fun h => absurd h hnot'⟩ (by simp)
        (fun h => absurd h Bool.false_ne_true)
  · rename_i hnone
    refine .overflow ?_ rfl rfl rfl
    cases hp : checkedAdd current.packets 1 with
    | none => exact Or.inl (checkedAdd_eq_none.mp hp)
    | some packets =>
      cases hb : checkedAdd current.payloadBytes payloadBytes with
      | none => exact Or.inr (checkedAdd_eq_none.mp hb)
      | some bytes => exact absurd hb (hnone packets bytes hp)

/-- The facts that are the same in every return of `evaluateUrr`. -/
structure UrrFacts (urr : Urr) (current : UsageCounterState) (d : UrrDecision) : Prop where
  applicable : d.applicable = true
  urrId : d.urrId = urr.id.value
  counted : d.counted = true
  packetsBefore : d.packetsBefore = current.packets
  bytesBefore : d.bytesBefore = current.payloadBytes

theorem evaluateUrr_facts (urr : Urr) (current : UsageCounterState) (payloadBytes : UInt64)
    (sessionId : String) (rulesetVersion : UInt64) :
    UrrFacts urr current (evaluateUrr urr current payloadBytes sessionId rulesetVersion).decision := by
  unfold evaluateUrr
  dsimp only
  split
  · split
    · exact ⟨rfl, rfl, rfl, rfl, rfl⟩
    · exact ⟨rfl, rfl, rfl, rfl, rfl⟩
  · exact ⟨rfl, rfl, rfl, rfl, rfl⟩

theorem evaluateUrr_thresholdReached (urr : Urr) (current : UsageCounterState)
    (payloadBytes : UInt64) (sessionId : String) (rulesetVersion : UInt64) :
    (evaluateUrr urr current payloadBytes sessionId rulesetVersion).decision.thresholdReached
      = (evaluateUrr urr current payloadBytes sessionId rulesetVersion).reportGenerated := by
  unfold evaluateUrr
  dsimp only
  split
  · split <;> rfl
  · rfl

theorem evaluateUrr_overflow_iff (urr : Urr) (current : UsageCounterState) (payloadBytes : UInt64)
    (sessionId : String) (rulesetVersion : UInt64) :
    (evaluateUrr urr current payloadBytes sessionId rulesetVersion).overflow = true ↔
      UrrOverflows current payloadBytes := by
  cases evaluateUrr_outcome urr current payloadBytes sessionId rulesetVersion with
  | overflow hover hflag _ _ => exact ⟨fun _ => hover, fun _ => hflag⟩
  | counted hfits hflag _ _ _ _ _ _ _ =>
    rw [hflag]
    exact ⟨fun h => (by cases h), fun h => absurd h hfits⟩

/-- A report is generated exactly when one is due and the counters fit. -/
theorem evaluateUrr_report_iff (urr : Urr) (current : UsageCounterState) (payloadBytes : UInt64)
    (sessionId : String) (rulesetVersion : UInt64) :
    (evaluateUrr urr current payloadBytes sessionId rulesetVersion).reportGenerated = true ↔
      ¬ UrrOverflows current payloadBytes ∧ UrrReportDue urr current payloadBytes := by
  cases evaluateUrr_outcome urr current payloadBytes sessionId rulesetVersion with
  | overflow hover _ _ hreport =>
    rw [hreport]
    exact ⟨fun h => (by cases h), fun h => absurd hover h.1⟩
  | counted hfits _ _ _ _ _ hreport _ _ =>
    rw [hreport]
    exact ⟨fun h => ⟨hfits, h⟩, fun h => h.2⟩

/-- Without a report there is no report ID. -/
theorem evaluateUrr_quiet {urr : Urr} {current : UsageCounterState} {payloadBytes : UInt64}
    {sessionId : String} {rulesetVersion : UInt64}
    (h : (evaluateUrr urr current payloadBytes sessionId rulesetVersion).reportGenerated = false) :
    (evaluateUrr urr current payloadBytes sessionId rulesetVersion).decision.reportId = "" := by
  unfold evaluateUrr at h ⊢
  dsimp only at h ⊢
  split at h
  · split at h
    · cases h
    · rename_i hnot
      rw [if_neg hnot]
  · rfl

end UpfPolicy
