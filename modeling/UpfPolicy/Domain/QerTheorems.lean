/-
UpfPolicy.Domain.QerTheorems — `evaluateQer` over the unbounded integers,
and over time.

`evaluateQer_exact` compares every number `evaluateQer` returns with the
one the unbounded integers give, and every 64-bit operation on the way:
`evaluateQerLogged` is the source with its operations logged, and none of
them wraps. The rest is about two evaluations of one QER at different
times. A refill splits (`Bucket.refill_refill`), so packets that were rate
limited in between do not change what a later packet gets
(`rateLimitedRun_agrees`); and the level never falls with time
(`Bucket.level_mono`), so waiting costs a packet its admission only where
the numerator no longer fits 64 bits (`evaluateQer_wait`).

The facts an admitted packet reports add up exactly when the refill is not
cut at the burst (`evaluateQer_addsUp_iff`).
-/
import UpfPolicy.Domain.EngineTheorems
import UpfPolicy.Support.Words

namespace UpfPolicy

open Support

/-! ## The two ways through an open gate -/

theorem evaluateQer_refused {qer : Qer} {current : TokenBucketState} {nowMicros : UInt64}
    (hopen : qer.gate = .opened) (h : ¬ QerRefills qer current nowMicros) (packetBytes : UInt64) :
    evaluateQer qer current packetBytes nowMicros = qerArithmeticError qer current packetBytes := by
  rw [evaluateQer, if_neg (by rw [hopen]; decide)]
  by_cases hback : nowMicros < current.lastRefillMicros
  · rw [if_pos hback]
  · rw [if_neg hback]
    have hle : current.lastRefillMicros ≤ nowMicros := UInt64.not_lt.mp hback
    rcases qerNumerator_spec qer current nowMicros hle with ⟨hnone, -⟩ | ⟨numerator, -, hnum⟩
    · rw [hnone]
    · have hfits : qer.bucket.accrued current.fill nowMicros.toNat < 2 ^ 64 :=
        hnum ▸ numerator.toNat_lt
      exact absurd ⟨hopen, UInt64.le_iff_toNat_le.mp hle, hfits⟩ h

theorem evaluateQer_refilled {qer : Qer} {current : TokenBucketState} {nowMicros : UInt64}
    (h : QerRefills qer current nowMicros) (packetBytes : UInt64) :
    ∃ numerator, qerNumerator qer current nowMicros = some numerator ∧
      numerator.toNat = qer.bucket.accrued current.fill nowMicros.toNat ∧
      evaluateQer qer current packetBytes nowMicros
        = qerRefillAndCharge qer current packetBytes nowMicros numerator := by
  have hback : ¬ nowMicros < current.lastRefillMicros := fun hlt =>
    Nat.not_le.mpr (UInt64.lt_iff_toNat_lt.mp hlt) h.forward
  rcases qerNumerator_spec qer current nowMicros (UInt64.not_lt.mp hback)
    with ⟨-, hbig⟩ | ⟨numerator, hsome, hnum⟩
  · exact absurd h.fits (Nat.not_lt.mpr hbig)
  · refine ⟨numerator, hsome, hnum, ?_⟩
    rw [evaluateQer, if_neg (by rw [h.opened]; decide), if_neg hback, hsome]

/-- What a decision says it did with the packet. -/
inductive QerDecision.Served (d : QerDecision) : Prop where
  | allowed (hallowed : d.allowed = true) (htext : d.outcome = "ALLOW")
  | limited (hallowed : d.allowed = false) (htext : d.outcome = "RATE_LIMITED")

theorem qerRefillAndCharge_served (qer : Qer) (current : TokenBucketState)
    (packetBytes nowMicros numerator : UInt64) :
    (qerRefillAndCharge qer current packetBytes nowMicros numerator).decision.Served := by
  unfold qerRefillAndCharge
  dsimp only
  generalize current.tokensBytes + stdMin _ (numerator / 8000000) = tokens
  split
  · exact .limited rfl rfl
  · exact .allowed rfl rfl

theorem evaluateQer_served {qer : Qer} {current : TokenBucketState} {nowMicros : UInt64}
    (h : QerRefills qer current nowMicros) (packetBytes : UInt64) :
    (evaluateQer qer current packetBytes nowMicros).decision.Served := by
  obtain ⟨numerator, -, -, heval⟩ := evaluateQer_refilled h packetBytes
  rw [heval]
  exact qerRefillAndCharge_served qer current packetBytes nowMicros numerator

theorem evaluateQer_error_iff {qer : Qer} (hopen : qer.gate = .opened)
    (current : TokenBucketState) (packetBytes nowMicros : UInt64) :
    (evaluateQer qer current packetBytes nowMicros).decision.outcome = "ARITHMETIC_ERROR" ↔
      ¬ QerRefills qer current nowMicros := by
  constructor
  · intro herror h
    cases evaluateQer_served h packetBytes with
    | allowed _ htext => rw [htext] at herror; exact absurd herror (by decide)
    | limited _ htext => rw [htext] at herror; exact absurd herror (by decide)
  · intro h
    rw [evaluateQer_refused hopen h]
    rfl

/-- Only a refilled QER that turns the packet away is rate limited. -/
theorem evaluateQer_limited {qer : Qer} {current : TokenBucketState}
    {packetBytes nowMicros : UInt64}
    (h : (evaluateQer qer current packetBytes nowMicros).decision.outcome = "RATE_LIMITED") :
    QerRefills qer current nowMicros ∧
      (evaluateQer qer current packetBytes nowMicros).next.fill
        = qer.bucket.refill current.fill nowMicros.toNat := by
  cases evaluateQer_outcome qer current packetBytes nowMicros with
  | closed hgate _ _ _ _ =>
    rw [evaluateQer, if_pos hgate] at h
    exact absurd h (show "GATE_CLOSED" ≠ "RATE_LIMITED" by decide)
  | arithmetic hgate hrefuse _ _ _ _ =>
    rw [evaluateQer_refused hgate hrefuse] at h
    exact absurd h (show "ARITHMETIC_ERROR" ≠ "RATE_LIMITED" by decide)
  | limited hrefill _ hnext _ _ _ => exact ⟨hrefill, hnext⟩
  | charged hrefill _ _ hallowed _ =>
    cases evaluateQer_served hrefill packetBytes with
    | allowed _ htext => rw [htext] at h; exact absurd h (by decide)
    | limited hdenied _ => rw [hdenied] at hallowed; cases hallowed

/-- The state a refilled QER is left in: the bucket refilled, and charged if
the packet passes. -/
theorem evaluateQer_next_fill {qer : Qer} {current : TokenBucketState} {nowMicros : UInt64}
    (h : QerRefills qer current nowMicros) (packetBytes : UInt64) :
    (evaluateQer qer current packetBytes nowMicros).next.fill
      = (qer.bucket.refill current.fill nowMicros.toNat).spend
          (if (evaluateQer qer current packetBytes nowMicros).decision.allowed
            then packetBytes.toNat else 0) := by
  cases evaluateQer_outcome qer current packetBytes nowMicros with
  | closed hgate _ _ _ _ =>
    rw [h.opened] at hgate
    cases hgate
  | arithmetic _ hrefuse _ _ _ _ => exact absurd h hrefuse
  | limited _ _ hnext hallowed _ _ =>
    rw [hnext, hallowed]
    rfl
  | charged _ _ hnext hallowed _ =>
    rw [hnext, hallowed]
    rfl

/-! ## The source with its operations logged -/

/-- `checkedAdd` once `max() - a` is known. -/
def checkedAddBehind (a b room : UInt64) : Logged (Option UInt64) :=
  if b > room then pure none
  else do
    let out ← Logged.word (.add a b)
    pure (some out)

/-- `checkedAdd`: the guard subtracts, and the sum is formed behind it. -/
def checkedAddLogged (a b : UInt64) : Logged (Option UInt64) :=
  Logged.word (.sub uint64Max a) >>= checkedAddBehind a b

def checkedMultiplyLogged (a b : UInt64) : Logged (Option UInt64) :=
  if a ≠ 0 ∧ b > uint64Max / a then pure none
  else do
    let out ← Logged.word (.mul a b)
    pure (some out)

def qerNumeratorLogged (qer : Qer) (current : TokenBucketState) (nowMicros : UInt64) :
    Logged (Option UInt64) := do
  let elapsed ← Logged.word (.sub nowMicros current.lastRefillMicros)
  let product ← checkedMultiplyLogged elapsed qer.rateBitsPerSecond
  match product with
  | none => pure none
  | some product => checkedAddLogged product current.remainderBitMicros

def qerRoomLogged (qer : Qer) (current : TokenBucketState) : Logged UInt64 :=
  if qer.burstBytes > current.tokensBytes then
    Logged.word (.sub qer.burstBytes current.tokensBytes)
  else pure 0

def qerRefillAndChargeLogged (qer : Qer) (current : TokenBucketState)
    (packetBytes nowMicros numerator : UInt64) : Logged QerEvaluation := do
  let facts := { qerFacts qer current packetBytes with refillBytes := numerator / 8000000 }
  let room ← qerRoomLogged qer current
  let tokens ← Logged.word (.add current.tokensBytes (stdMin room (numerator / 8000000)))
  let next : TokenBucketState :=
    { tokensBytes := tokens
      lastRefillMicros := nowMicros
      remainderBitMicros := numerator % 8000000 }
  if packetBytes > tokens then
    pure {
      decision := { facts with tokensAfter := tokens, outcome := "RATE_LIMITED" }
      next := next
      failure := .rateLimited }
  else do
    let left ← Logged.word (.sub tokens packetBytes)
    pure {
      decision := { facts with tokensAfter := left, allowed := true, outcome := "ALLOW" }
      next := { next with tokensBytes := left }
      failure := .rateLimited }

def evaluateQerLogged (qer : Qer) (current : TokenBucketState) (packetBytes nowMicros : UInt64) :
    Logged QerEvaluation :=
  if qer.gate = .closed then
    pure {
      decision := { qerFacts qer current packetBytes with outcome := "GATE_CLOSED" }
      next := current
      failure := .gateClosed }
  else if nowMicros < current.lastRefillMicros then
    pure (qerArithmeticError qer current packetBytes)
  else do
    let numerator ← qerNumeratorLogged qer current nowMicros
    match numerator with
    | none => pure (qerArithmeticError qer current packetBytes)
    | some numerator => qerRefillAndChargeLogged qer current packetBytes nowMicros numerator

theorem uint64Max_ge (a : UInt64) : a ≤ uint64Max := by
  rw [UInt64.le_iff_toNat_le, uint64Max_toNat]
  exact Nat.le_sub_one_of_lt a.toNat_lt

theorem checkedAddBehind_value (a b room : UInt64) :
    (checkedAddBehind a b room).value = if b > room then none else some (a + b) := by
  rw [checkedAddBehind]
  split <;> rfl

theorem checkedAddLogged_value (a b : UInt64) :
    (checkedAddLogged a b).value = checkedAdd a b := by
  have hroom : (WordOp.sub uint64Max a).value.toNat = uint64Max.toNat - a.toNat :=
    UInt64.toNat_sub_of_le _ _ (uint64Max_ge a)
  rw [checkedAddLogged, Logged.value_bind, Logged.value_word, checkedAddBehind_value, checkedAdd]
  refine if_congr ?_ rfl rfl
  rw [gt_iff_lt, gt_iff_lt, UInt64.lt_iff_toNat_lt, hroom]

theorem checkedMultiplyLogged_value (a b : UInt64) :
    (checkedMultiplyLogged a b).value = checkedMultiply a b := by
  have hguard : (a ≠ 0 ∧ b > uint64Max / a) ↔
      (a ≠ 0 ∧ b.toNat > uint64Max.toNat / a.toNat) := by
    rw [gt_iff_lt, UInt64.lt_iff_toNat_lt, UInt64.toNat_div]
  rw [checkedMultiplyLogged, checkedMultiply]
  by_cases h : a ≠ 0 ∧ b > uint64Max / a
  · rw [if_pos h, if_pos (hguard.mp h)]
    rfl
  · rw [if_neg h, if_neg (mt hguard.mpr h)]
    rfl

/-- The logged source computes what the source computes. -/
theorem evaluateQerLogged_value (qer : Qer) (current : TokenBucketState)
    (packetBytes nowMicros : UInt64) :
    (evaluateQerLogged qer current packetBytes nowMicros).value
      = evaluateQer qer current packetBytes nowMicros := by
  have hnumerator : (qerNumeratorLogged qer current nowMicros).value
      = qerNumerator qer current nowMicros := by
    rw [qerNumeratorLogged, Logged.value_bind, Logged.value_bind, checkedMultiplyLogged_value,
      Logged.value_word, WordOp.value, qerNumerator]
    cases checkedMultiply (nowMicros - current.lastRefillMicros) qer.rateBitsPerSecond with
    | none => rfl
    | some product => exact checkedAddLogged_value product current.remainderBitMicros
  have hroom : (qerRoomLogged qer current).value
      = if qer.burstBytes > current.tokensBytes then qer.burstBytes - current.tokensBytes else 0 := by
    rw [qerRoomLogged]
    split <;> rfl
  have hcharge : ∀ numerator,
      (qerRefillAndChargeLogged qer current packetBytes nowMicros numerator).value
        = qerRefillAndCharge qer current packetBytes nowMicros numerator := by
    intro numerator
    rw [qerRefillAndChargeLogged, qerRefillAndCharge, Logged.value_bind, Logged.value_bind, hroom,
      Logged.value_word, WordOp.value]
    dsimp only
    generalize current.tokensBytes + stdMin _ (numerator / 8000000) = tokens
    split <;> rfl
  rw [evaluateQerLogged, evaluateQer]
  split
  · rfl
  · split
    · rfl
    · rw [Logged.value_bind, hnumerator]
      cases qerNumerator qer current nowMicros with
      | none => rfl
      | some numerator => exact hcharge numerator

/-! ## No operation wraps -/

theorem checkedAddBehind_exact {a b room : UInt64} (h : room.toNat = uint64Max.toNat - a.toNat) :
    (checkedAddBehind a b room).Exact := by
  rw [checkedAddBehind]
  split
  · exact Logged.exact_pure _
  · rename_i hle
    refine Logged.Exact.bind (Logged.exact_word (WordOp.add_fits ?_)) (Logged.exact_pure _)
    rw [gt_iff_lt, UInt64.lt_iff_toNat_lt, h] at hle
    exact Nat.not_le.mp (mt (checkedAdd_guard a b).mpr hle)

theorem checkedAddLogged_exact (a b : UInt64) : (checkedAddLogged a b).Exact := by
  have hmax := uint64Max_ge a
  have hroom := UInt64.toNat_sub_of_le _ _ hmax
  exact Logged.Exact.bind (Logged.exact_word (WordOp.sub_fits hmax)) (checkedAddBehind_exact hroom)

theorem checkedMultiplyLogged_exact (a b : UInt64) : (checkedMultiplyLogged a b).Exact := by
  rw [checkedMultiplyLogged]
  split
  · exact Logged.exact_pure _
  · rename_i h
    refine Logged.Exact.bind (Logged.exact_word (WordOp.mul_fits ?_)) (Logged.exact_pure _)
    rw [gt_iff_lt, UInt64.lt_iff_toNat_lt, UInt64.toNat_div] at h
    exact Nat.not_le.mp (mt (checkedMultiply_guard a b).mpr h)

theorem qerNumeratorLogged_exact {qer : Qer} {current : TokenBucketState} {nowMicros : UInt64}
    (hle : current.lastRefillMicros ≤ nowMicros) :
    (qerNumeratorLogged qer current nowMicros).Exact := by
  refine Logged.Exact.bind (Logged.exact_word (WordOp.sub_fits hle)) ?_
  refine Logged.Exact.bind (checkedMultiplyLogged_exact _ _) ?_
  cases (checkedMultiplyLogged _ qer.rateBitsPerSecond).value with
  | none => exact Logged.exact_pure _
  | some product => exact checkedAddLogged_exact _ _

theorem qerRoomLogged_exact (qer : Qer) (current : TokenBucketState) :
    (qerRoomLogged qer current).Exact := by
  rw [qerRoomLogged]
  split
  · rename_i h
    exact Logged.exact_word (WordOp.sub_fits (UInt64.le_of_lt h))
  · exact Logged.exact_pure _

/-- The room caps the addition, so it stays below the burst or leaves the
tokens as they are. -/
theorem qerRefillAndChargeLogged_exact (qer : Qer) (current : TokenBucketState)
    (packetBytes nowMicros numerator : UInt64) :
    (qerRefillAndChargeLogged qer current packetBytes nowMicros numerator).Exact := by
  have hroom : (qerRoomLogged qer current).value.toNat
      = qer.burstBytes.toNat - current.tokensBytes.toNat := by
    rw [← qerRoom_toNat, qerRoomLogged]
    split <;> rfl
  have hburst := qer.burstBytes.toNat_lt
  have htokens := current.tokensBytes.toNat_lt
  refine Logged.Exact.bind (qerRoomLogged_exact qer current) ?_
  refine Logged.Exact.bind (Logged.exact_word (WordOp.add_fits ?_)) ?_
  · rw [stdMin_toNat, hroom]
    omega
  · split
    · exact Logged.exact_pure _
    · rename_i h
      exact Logged.Exact.bind (Logged.exact_word (WordOp.sub_fits (UInt64.not_lt.mp h)))
        (Logged.exact_pure _)

/-- No 64-bit operation of `evaluateQer` wraps, on any input. -/
theorem evaluateQerLogged_exact (qer : Qer) (current : TokenBucketState)
    (packetBytes nowMicros : UInt64) :
    (evaluateQerLogged qer current packetBytes nowMicros).Exact := by
  rw [evaluateQerLogged]
  split
  · exact Logged.exact_pure _
  · split
    · exact Logged.exact_pure _
    · rename_i hback
      refine Logged.Exact.bind (qerNumeratorLogged_exact (UInt64.not_lt.mp hback)) ?_
      cases (qerNumeratorLogged qer current nowMicros).value with
      | none => exact Logged.exact_pure _
      | some numerator => exact qerRefillAndChargeLogged_exact _ _ _ _ numerator

/-! ## Exactness -/

/-- `elapsed * rateBitsPerSecond + remainderBitMicros` of the integers; it is
negative where time runs backwards far enough. -/
def qerExactNumerator (qer : Qer) (current : TokenBucketState) (nowMicros : UInt64) : Int :=
  (nowMicros.toNat - current.lastRefillMicros.toNat : Int) * qer.rateBitsPerSecond.toNat
    + current.remainderBitMicros.toNat

/-- The refilled level of the integers. -/
def qerExactLevel (qer : Qer) (current : TokenBucketState) (nowMicros : UInt64) : Int :=
  max current.tokensBytes.toNat
    (min qer.burstBytes.toNat
      (current.tokensBytes.toNat + qerExactNumerator qer current nowMicros / 8000000))

/-- What makes `evaluateQer` refuse, over the integers. -/
def QerRefuses (qer : Qer) (current : TokenBucketState) (nowMicros : UInt64) : Prop :=
  nowMicros < current.lastRefillMicros ∨ 2 ^ 64 ≤ qerExactNumerator qer current nowMicros ∨
    2 ^ 64 ≤ (nowMicros.toNat - current.lastRefillMicros.toNat : Int) * qer.rateBitsPerSecond.toNat

instance (qer : Qer) (current : TokenBucketState) (nowMicros : UInt64) :
    Decidable (QerRefuses qer current nowMicros) :=
  inferInstanceAs (Decidable (_ ∨ _ ∨ _))

theorem qerExactNumerator_eq (qer : Qer) {current : TokenBucketState} {nowMicros : UInt64}
    (h : current.lastRefillMicros ≤ nowMicros) :
    qerExactNumerator qer current nowMicros
      = qer.bucket.accrued current.fill nowMicros.toNat := by
  have hle := UInt64.le_iff_toNat_le.mp h
  rw [accrued_fill, qerExactNumerator, Nat.cast_add, Nat.cast_mul, Nat.cast_sub hle]

theorem qerExactLevel_eq {qer : Qer} {current : TokenBucketState} {nowMicros : UInt64}
    (h : current.lastRefillMicros ≤ nowMicros) :
    qerExactLevel qer current nowMicros = qer.bucket.level current.fill nowMicros.toNat := by
  have hlevel := qer.bucket.level_eq_max current.fill nowMicros.toNat
  rw [qerExactLevel, qerExactNumerator_eq qer h, hlevel]
  push_cast
  rfl

theorem qerRefuses_iff {qer : Qer} (hopen : qer.gate = .opened) (current : TokenBucketState)
    (nowMicros : UInt64) :
    QerRefuses qer current nowMicros ↔ ¬ QerRefills qer current nowMicros := by
  by_cases hback : nowMicros < current.lastRefillMicros
  · refine iff_of_true (Or.inl hback) fun h => ?_
    exact Nat.not_le.mpr (UInt64.lt_iff_toNat_lt.mp hback) h.forward
  · have hle := UInt64.not_lt.mp hback
    have hnum := qerExactNumerator_eq qer hle
    have hfits : QerRefills qer current nowMicros ↔
        qer.bucket.accrued current.fill nowMicros.toNat < 2 ^ 64 :=
      ⟨QerRefills.fits, fun h => ⟨hopen, UInt64.le_iff_toNat_le.mp hle, h⟩⟩
    rw [hfits, QerRefuses]
    have hproduct : (nowMicros.toNat - current.lastRefillMicros.toNat : Int)
          * qer.rateBitsPerSecond.toNat ≤ qerExactNumerator qer current nowMicros := by
      rw [qerExactNumerator]
      omega
    constructor
    · rintro (h | h | h)
      · exact absurd h hback
      · omega
      · omega
    · intro h
      exact Or.inr (Or.inl (by omega))

/-- **`evaluateQer` is exact**: the numbers it returns are those of the
unbounded integers, and no operation on the way wraps. -/
theorem evaluateQer_exact (qer : Qer) (current : TokenBucketState)
    (packetBytes nowMicros : UInt64) (hopen : qer.gate = .opened) :
    let N := qerExactNumerator qer current nowMicros
    let L := qerExactLevel qer current nowMicros
    let e := evaluateQer qer current packetBytes nowMicros
    ((e.decision.outcome = "ARITHMETIC_ERROR" ∧ e.next = current) ↔
      QerRefuses qer current nowMicros) ∧
    (¬ QerRefuses qer current nowMicros →
      (e.decision.allowed = true ↔ (packetBytes.toNat : Int) ≤ L) ∧
      e.decision.Served ∧
      (e.next.tokensBytes.toNat : Int)
        = (if e.decision.allowed then L - packetBytes.toNat else L) ∧
      (e.next.remainderBitMicros.toNat : Int) = N % 8000000 ∧
      e.next.lastRefillMicros = nowMicros) ∧
    (evaluateQerLogged qer current packetBytes nowMicros).value = e ∧
    ∀ op ∈ (evaluateQerLogged qer current packetBytes nowMicros).log, op.Fits := by
  intro N L e
  refine ⟨?_, ?_, evaluateQerLogged_value _ _ _ _, evaluateQerLogged_exact _ _ _ _⟩
  · rw [qerRefuses_iff hopen, ← evaluateQer_error_iff hopen current packetBytes nowMicros]
    refine ⟨fun h => h.1, fun h => ⟨h, ?_⟩⟩
    have hrefuse := (evaluateQer_error_iff hopen current packetBytes nowMicros).mp h
    rw [show e = _ from evaluateQer_refused hopen hrefuse packetBytes]
    rfl
  · intro hserves
    have hrefill : QerRefills qer current nowMicros := by
      rwa [qerRefuses_iff hopen, not_not] at hserves
    have hle : current.lastRefillMicros ≤ nowMicros :=
      UInt64.le_iff_toNat_le.mpr hrefill.forward
    have hL : L = qer.bucket.level current.fill nowMicros.toNat := qerExactLevel_eq hle
    have hN : N = qer.bucket.accrued current.fill nowMicros.toNat := qerExactNumerator_eq qer hle
    have hnext := evaluateQer_next_fill hrefill packetBytes
    have hallowed : e.decision.allowed = true ↔
        packetBytes.toNat ≤ qer.bucket.level current.fill nowMicros.toNat := by
      rw [show e.decision.allowed = true ↔ _ from evaluateQer_allowed_iff _ _ _ _]
      exact and_iff_right hrefill
    refine ⟨?_, evaluateQer_served hrefill packetBytes, ?_, ?_, ?_⟩
    · rw [hallowed, hL, Nat.cast_le]
    · have htokens : e.next.tokensBytes.toNat = qer.bucket.level current.fill nowMicros.toNat
          - (if e.decision.allowed then packetBytes.toNat else 0) := congrArg Fill.tokens hnext
      rw [htokens, hL]
      split
      · rename_i h
        exact Nat.cast_sub (hallowed.mp h)
      · rfl
    · have hrem : e.next.remainderBitMicros.toNat
          = qer.bucket.accrued current.fill nowMicros.toNat % 8000000 :=
        congrArg Fill.remainder hnext
      rw [hrem, hN]
      rfl
    · exact UInt64.toNat_inj.mp (congrArg Fill.last hnext)

theorem evaluateQer_exact_burst :
    ({ gate := .opened, rateBitsPerSecond := 12000000, burstBytes := 3 } : Qer).gate = .opened ∧
    ((evaluateQer { gate := .opened, rateBitsPerSecond := 12000000, burstBytes := 3 }
        { tokensBytes := 1 } 2 1).next = ⟨0, 1, 4000000⟩) ∧
    ((evaluateQer { gate := .opened, rateBitsPerSecond := 12000000, burstBytes := 3 }
        { tokensBytes := 1 } 2 1).decision.allowed = true ↔ (2 : Int) ≤ 2) :=
  ⟨rfl, by decide,
    ((evaluateQer_exact { gate := .opened, rateBitsPerSecond := 12000000, burstBytes := 3 }
      { tokensBytes := 1 } 2 1 rfl).2.1 (by decide)).1⟩

/-! ## Rate-limited packets in between -/

/-- Two evaluations with the same admission, the same outcome and the same
next state. -/
structure QerEvaluation.Agrees (e e' : QerEvaluation) : Prop where
  allowed : e.decision.allowed = e'.decision.allowed
  outcome : e.decision.outcome = e'.decision.outcome
  next : e.next = e'.next

theorem TokenBucketState.fill_inj {s s' : TokenBucketState} (h : s.fill = s'.fill) : s = s' := by
  have htokens := UInt64.toNat_inj.mp (congrArg Fill.tokens h)
  have hlast := UInt64.toNat_inj.mp (congrArg Fill.last h)
  have hrem := UInt64.toNat_inj.mp (congrArg Fill.remainder h)
  cases s
  cases s'
  simp only at htokens hlast hrem
  rw [htokens, hlast, hrem]

/-- States that refill alike at `t` serve a packet alike at `t`. -/
theorem evaluateQer_agrees {qer : Qer} {s s' : TokenBucketState} {t : UInt64}
    (h : QerRefills qer s t) (h' : QerRefills qer s' t)
    (hsame : qer.bucket.refill s.fill t.toNat = qer.bucket.refill s'.fill t.toNat)
    (y : UInt64) : (evaluateQer qer s y t).Agrees (evaluateQer qer s' y t) := by
  have hlevel : qer.bucket.level s.fill t.toNat = qer.bucket.level s'.fill t.toNat :=
    congrArg Fill.tokens hsame
  have hallowed : (evaluateQer qer s y t).decision.allowed
      = (evaluateQer qer s' y t).decision.allowed := by
    rw [Bool.eq_iff_iff, evaluateQer_allowed_iff, evaluateQer_allowed_iff, hlevel,
      and_iff_right h, and_iff_right h']
  refine ⟨hallowed, ?_, TokenBucketState.fill_inj ?_⟩
  · cases evaluateQer_served h y with
    | allowed ha htext =>
      cases evaluateQer_served h' y with
      | allowed _ htext' => rw [htext, htext']
      | limited hd _ => rw [ha, hd] at hallowed; cases hallowed
    | limited hd htext =>
      cases evaluateQer_served h' y with
      | allowed ha _ => rw [hd, ha] at hallowed; cases hallowed
      | limited _ htext' => rw [htext, htext']
  · rw [evaluateQer_next_fill h, evaluateQer_next_fill h', hsame, hallowed]

/-- A sequence of attempts, each a packet size and a time, all of them rate
limited. -/
inductive RateLimitedRun (qer : Qer) :
    TokenBucketState → List (UInt64 × UInt64) → TokenBucketState → Prop where
  | nil (s : TokenBucketState) : RateLimitedRun qer s [] s
  | cons {s s' : TokenBucketState} {attempts : List (UInt64 × UInt64)} (x t : UInt64) :
      (evaluateQer qer s x t).decision.outcome = "RATE_LIMITED" →
      RateLimitedRun qer (evaluateQer qer s x t).next attempts s' →
      RateLimitedRun qer s ((x, t) :: attempts) s'

/-- The step: one rate-limited attempt is a refill, and a refill splits. -/
theorem refills_after_limited {qer : Qer} {s : TokenBucketState} {x t t2 : UInt64}
    (hlimited : (evaluateQer qer s x t).decision.outcome = "RATE_LIMITED") (hle : t ≤ t2)
    (h : QerRefills qer s t2) :
    QerRefills qer (evaluateQer qer s x t).next t2 ∧
      qer.bucket.refill (evaluateQer qer s x t).next.fill t2.toNat
        = qer.bucket.refill s.fill t2.toNat := by
  obtain ⟨hrefill, hnext⟩ := evaluateQer_limited hlimited
  have hforward := hrefill.forward
  have htimes := UInt64.le_iff_toNat_le.mp hle
  have hless := qer.bucket.accrued_refill_le s.fill hforward htimes
  refine ⟨⟨h.opened, ?_, ?_⟩, ?_⟩
  · rw [hnext]
    exact htimes
  · rw [hnext]
    exact Nat.lt_of_le_of_lt hless h.fits
  · rw [hnext]
    exact qer.bucket.refill_refill s.fill hforward htimes

theorem RateLimitedRun.refills {qer : Qer} {s s' : TokenBucketState}
    {attempts : List (UInt64 × UInt64)} (hrun : RateLimitedRun qer s attempts s') {t2 : UInt64}
    (htimes : ∀ a ∈ attempts, a.2 ≤ t2) (h : QerRefills qer s t2) :
    QerRefills qer s' t2 ∧
      qer.bucket.refill s'.fill t2.toNat = qer.bucket.refill s.fill t2.toNat := by
  induction hrun with
  | nil s => exact ⟨h, rfl⟩
  | cons x t hlimited _ ih =>
    obtain ⟨hfirst, hrest⟩ := List.forall_mem_cons.mp htimes
    obtain ⟨hstep, hsame⟩ := refills_after_limited hlimited hfirst h
    obtain ⟨hlast, hsame'⟩ := ih hrest hstep
    exact ⟨hlast, hsame'.trans hsame⟩

/-- **Refill is independent of rejected attempts**: after any number of
rate-limited packets up to `t2`, the packet at `t2` gets what it would have
got without them. That the times do not decrease follows from the attempts
being rate limited, and the tokens need not be below the burst. -/
theorem rateLimitedRun_agrees {qer : Qer} (hopen : qer.gate = .opened)
    {s s' : TokenBucketState} {attempts : List (UInt64 × UInt64)} {y t2 : UInt64}
    (hrun : RateLimitedRun qer s attempts s') (htimes : ∀ a ∈ attempts, a.2 ≤ t2)
    (hserves : (evaluateQer qer s y t2).decision.outcome ≠ "ARITHMETIC_ERROR") :
    (evaluateQer qer s' y t2).Agrees (evaluateQer qer s y t2) := by
  have hrefill : QerRefills qer s t2 := by
    rwa [Ne, evaluateQer_error_iff hopen, not_not] at hserves
  obtain ⟨hlast, hsame⟩ := hrun.refills htimes hrefill
  exact evaluateQer_agrees hlast hrefill hsame y

/-- One byte per two microseconds: turned away at 1 and 2, served at 4. -/
theorem rateLimitedRun_agrees_half :
    let qer : Qer := { gate := .opened, rateBitsPerSecond := 4000000, burstBytes := 4 }
    RateLimitedRun qer {} [(3, 1), (3, 2)] ⟨1, 2, 0⟩ ∧
      (evaluateQer qer ⟨1, 2, 0⟩ 2 4).Agrees (evaluateQer qer {} 2 4) := by
  intro qer
  have hfirst : (evaluateQer qer {} 3 1).next = ⟨0, 1, 4000000⟩ := by decide +kernel
  have hsecond : (evaluateQer qer ⟨0, 1, 4000000⟩ 3 2).next = ⟨1, 2, 0⟩ := by decide +kernel
  have hrun : RateLimitedRun qer {} [(3, 1), (3, 2)] ⟨1, 2, 0⟩ := by
    refine .cons 3 1 (by decide +kernel) ?_
    rw [hfirst]
    refine .cons 3 2 (by decide +kernel) ?_
    rw [hsecond]
    exact .nil _
  exact ⟨hrun, rateLimitedRun_agrees rfl hrun (by simp) (by decide +kernel)⟩

/-! ## Waiting -/

/-- **Waiting never hurts, until the numerator passes 64 bits**: a packet
that is allowed at `t` is allowed at `t2` exactly when the numerator at `t2`
fits, and otherwise it is refused and the state stays as it is. -/
theorem evaluateQer_wait {qer : Qer} (hopen : qer.gate = .opened) {s : TokenBucketState}
    {p t t2 : UInt64} (hlast : s.lastRefillMicros ≤ t) (hle : t ≤ t2)
    (hallowed : (evaluateQer qer s p t).decision.allowed = true) :
    ((evaluateQer qer s p t2).decision.allowed = true ↔ qerExactNumerator qer s t2 < 2 ^ 64) ∧
    (2 ^ 64 ≤ qerExactNumerator qer s t2 →
      (evaluateQer qer s p t2).decision.outcome = "ARITHMETIC_ERROR" ∧
        (evaluateQer qer s p t2).next = s) := by
  have htimes := UInt64.le_iff_toNat_le.mp hle
  have hnum := qerExactNumerator_eq qer (UInt64.le_trans hlast hle)
  have henough := ((evaluateQer_allowed_iff qer s p t).mp hallowed).2
  have hgrows := qer.bucket.level_mono s.fill htimes
  have hforward := UInt64.le_iff_toNat_le.mp (UInt64.le_trans hlast hle)
  have hfits : QerRefills qer s t2 ↔ qerExactNumerator qer s t2 < 2 ^ 64 := by
    rw [hnum]
    refine ⟨fun h => ?_, fun h => ⟨hopen, hforward, ?_⟩⟩
    · exact_mod_cast h.fits
    · exact_mod_cast h
  refine ⟨?_, fun hbig => ?_⟩
  · rw [evaluateQer_allowed_iff, ← hfits]
    exact and_iff_left (Nat.le_trans henough hgrows)
  · have hrefuse : ¬ QerRefills qer s t2 := fun h => absurd (hfits.mp h) (not_lt.mpr hbig)
    rw [evaluateQer_refused hopen hrefuse]
    exact ⟨rfl, rfl⟩

theorem evaluateQer_wait_full :
    let qer : Qer := { gate := .opened, rateBitsPerSecond := 8000000, burstBytes := 4 }
    (evaluateQer qer ⟨4, 0, 0⟩ 4 1).decision.allowed = true ∧
      ((evaluateQer qer ⟨4, 0, 0⟩ 4 7).decision.allowed = true ↔
        qerExactNumerator qer ⟨4, 0, 0⟩ 7 < 2 ^ 64) := by
  intro qer
  have hnow : (evaluateQer qer ⟨4, 0, 0⟩ 4 1).decision.allowed = true := by decide
  have hle : (1 : UInt64) ≤ 7 := by decide
  exact ⟨hnow, (evaluateQer_wait rfl UInt64.zero_le hle hnow).1⟩

/-- A full bucket at one byte a microsecond passes a byte now, and refuses it
about 27 days later. -/
theorem evaluateQer_wait_overflow :
    ¬ ∀ (qer : Qer) (s : TokenBucketState) (p t t2 : UInt64), qer.gate = .opened →
      s.lastRefillMicros ≤ t → t ≤ t2 →
      (evaluateQer qer s p t).decision.allowed = true →
      (evaluateQer qer s p t2).decision.allowed = true := by
  intro h
  let qer : Qer := { gate := .opened, rateBitsPerSecond := 8000000, burstBytes := 1000 }
  have hnow : (evaluateQer qer ⟨1000, 0, 0⟩ 1 0).decision.allowed = true := by decide +kernel
  have hlate : (evaluateQer qer ⟨1000, 0, 0⟩ 1 2305843009214).decision.allowed = false := by
    decide +kernel
  have hwait := h qer ⟨1000, 0, 0⟩ 1 0 2305843009214 rfl (UInt64.le_refl 0) UInt64.zero_le hnow
  rw [hlate] at hwait
  cases hwait

/-! ## The explanation -/

/-- The equation `renderHuman` prints for a decision. -/
def QerDecision.AddsUp (d : QerDecision) : Prop :=
  (d.tokensBefore.toNat : Int) + d.refillBytes.toNat - d.packetChargeBytes.toNat = d.tokensAfter.toNat

instance (d : QerDecision) : Decidable d.AddsUp := inferInstanceAs (Decidable (_ = _))

/-- Only an allowed packet is reported as such. -/
theorem evaluateQer_allow {qer : Qer} {current : TokenBucketState} {packetBytes nowMicros : UInt64}
    (h : (evaluateQer qer current packetBytes nowMicros).decision.outcome = "ALLOW") :
    (evaluateQer qer current packetBytes nowMicros).decision.allowed = true := by
  cases evaluateQer_outcome qer current packetBytes nowMicros with
  | closed hgate _ _ _ _ =>
    rw [evaluateQer, if_pos hgate] at h
    exact absurd h (show "GATE_CLOSED" ≠ "ALLOW" by decide)
  | arithmetic hgate hrefuse _ _ _ _ =>
    rw [evaluateQer_refused hgate hrefuse] at h
    exact absurd h (show "ARITHMETIC_ERROR" ≠ "ALLOW" by decide)
  | limited hrefill _ _ hdenied _ _ =>
    cases evaluateQer_served hrefill packetBytes with
    | allowed hallowed _ => exact hallowed
    | limited _ htext => rw [htext] at h; exact absurd h (by decide)
  | charged _ _ _ hallowed _ => exact hallowed

/-- The facts reported about a refill. -/
structure QerRefillFacts (current : TokenBucketState) (packetBytes numerator : UInt64)
    (e : QerEvaluation) : Prop where
  tokensBefore : e.decision.tokensBefore = current.tokensBytes
  refillBytes : e.decision.refillBytes = numerator / 8000000
  packetChargeBytes : e.decision.packetChargeBytes = packetBytes
  tokensAfter : e.decision.tokensAfter = e.next.tokensBytes

theorem qerRefillAndCharge_refillFacts (qer : Qer) (current : TokenBucketState)
    (packetBytes nowMicros numerator : UInt64) :
    QerRefillFacts current packetBytes numerator
      (qerRefillAndCharge qer current packetBytes nowMicros numerator) := by
  unfold qerRefillAndCharge
  dsimp only
  generalize current.tokensBytes + stdMin _ (numerator / 8000000) = tokens
  split
  · exact ⟨rfl, rfl, rfl, rfl⟩
  · exact ⟨rfl, rfl, rfl, rfl⟩

/-- **The explanation of an allowed packet adds up** exactly when the refill
fits under the burst: what is reported is the refill before it is capped. -/
theorem evaluateQer_addsUp_iff {qer : Qer} {current : TokenBucketState}
    {packetBytes nowMicros : UInt64}
    (h : (evaluateQer qer current packetBytes nowMicros).decision.outcome = "ALLOW") :
    (evaluateQer qer current packetBytes nowMicros).decision.AddsUp ↔
      qerExactNumerator qer current nowMicros / 8000000
        ≤ max 0 ((qer.burstBytes.toNat : Int) - current.tokensBytes.toNat) := by
  have hallowed := evaluateQer_allow h
  obtain ⟨hrefill, henough⟩ := (evaluateQer_allowed_iff qer current packetBytes nowMicros).mp hallowed
  obtain ⟨numerator, -, hnum, heval⟩ := evaluateQer_refilled hrefill packetBytes
  have hfacts := qerRefillAndCharge_refillFacts qer current packetBytes nowMicros numerator
  rw [← heval] at hfacts
  have hwhole : (numerator / 8000000).toNat
      = qer.bucket.accrued current.fill nowMicros.toNat / 8000000 := by
    rw [UInt64.toNat_div, hnum]
    rfl
  have hexact : qerExactNumerator qer current nowMicros / 8000000
      = ((qer.bucket.accrued current.fill nowMicros.toNat / 8000000 : Nat) : Int) := by
    rw [qerExactNumerator_eq qer (UInt64.le_iff_toNat_le.mpr hrefill.forward), Int.natCast_ediv]
    rfl
  have hlevel : qer.bucket.level current.fill nowMicros.toNat
      = max current.tokensBytes.toNat (min qer.burstBytes.toNat (current.tokensBytes.toNat
        + qer.bucket.accrued current.fill nowMicros.toNat / 8000000)) :=
    qer.bucket.level_eq_max current.fill nowMicros.toNat
  have hafter : (evaluateQer qer current packetBytes nowMicros).next.tokensBytes.toNat
      = qer.bucket.level current.fill nowMicros.toNat - packetBytes.toNat := by
    have hnext := evaluateQer_next_fill hrefill packetBytes
    rw [if_pos hallowed] at hnext
    exact congrArg Fill.tokens hnext
  rw [QerDecision.AddsUp, hfacts.tokensBefore, hfacts.refillBytes, hfacts.packetChargeBytes,
    hfacts.tokensAfter, hafter, hwhole, hexact]
  generalize qer.bucket.accrued current.fill nowMicros.toNat / 8000000 = refill at hlevel ⊢
  omega

theorem evaluateQer_addsUp_room :
    let qer : Qer := { gate := .opened, rateBitsPerSecond := 8000000, burstBytes := 1000 }
    (evaluateQer qer ⟨10, 0, 0⟩ 5 7).decision.outcome = "ALLOW" ∧
      ((evaluateQer qer ⟨10, 0, 0⟩ 5 7).decision.AddsUp ↔
        qerExactNumerator qer ⟨10, 0, 0⟩ 7 / 8000000 ≤ max 0 ((1000 : Int) - 10)) := by
  intro qer
  have hallow : (evaluateQer qer ⟨10, 0, 0⟩ 5 7).decision.outcome = "ALLOW" := by decide +kernel
  exact ⟨hallow, evaluateQer_addsUp_iff hallow⟩

/-- A full bucket is refilled with nothing, and 1000 bytes are reported:
1000 + 1000 - 1 = 999. -/
theorem evaluateQer_addsUp_full :
    ¬ ∀ (qer : Qer) (current : TokenBucketState) (packetBytes nowMicros : UInt64),
      (evaluateQer qer current packetBytes nowMicros).decision.outcome = "ALLOW" →
      (evaluateQer qer current packetBytes nowMicros).decision.AddsUp := by
  intro h
  let qer : Qer := { gate := .opened, rateBitsPerSecond := 8000000, burstBytes := 1000 }
  have hallow : (evaluateQer qer ⟨1000, 0, 0⟩ 1 1000).decision.outcome = "ALLOW" := by
    decide +kernel
  have hsum : ¬ (evaluateQer qer ⟨1000, 0, 0⟩ 1 1000).decision.AddsUp := by decide +kernel
  exact hsum (h qer ⟨1000, 0, 0⟩ 1 1000 hallow)

end UpfPolicy
