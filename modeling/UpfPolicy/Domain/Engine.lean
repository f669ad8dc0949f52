/-
UpfPolicy.Domain.Engine — the runtime state of the rules and the three
evaluations (`upf/domain/runtime_state.hpp`, `upf/domain/engine.hpp`,
`src/domain/qer.cpp`, `src/domain/far.cpp`, `src/domain/urr.cpp`).

Each evaluation is a pure function of a rule, the rule's runtime state and
the packet; nothing is committed here. The maps of the runtime state are
`std::map`s keyed by the 32-bit rule ID.
-/
import UpfPolicy.Domain.Decision
import UpfPolicy.Support.Generations

namespace UpfPolicy

open Support

/-! ## Runtime state -/

structure TokenBucketState where
  tokensBytes : UInt64 := 0
  lastRefillMicros : UInt64 := 0
  remainderBitMicros : UInt64 := 0
  deriving DecidableEq, Repr

instance : Inhabited TokenBucketState := ⟨{}⟩

structure UsageCounterState where
  packets : UInt64 := 0
  payloadBytes : UInt64 := 0
  reportEmitted : Bool := false
  deriving DecidableEq, Repr

instance : Inhabited UsageCounterState := ⟨{}⟩

structure RuntimeState where
  qers : Std.ExtTreeMap UInt32 TokenBucketState := ∅
  urrs : Std.ExtTreeMap UInt32 UsageCounterState := ∅
  qerGenerations : Std.ExtTreeMap UInt32 UInt32 := ∅
  urrGenerations : Std.ExtTreeMap UInt32 UInt32 := ∅

/-- The state `install` and `update` give a QER they do not migrate. -/
def freshTokens (qer : Qer) : TokenBucketState := { tokensBytes := qer.burstBytes }

/-- The two QER maps, and the two URR maps, as one store each. -/
def RuntimeState.qerStore (runtime : RuntimeState) : Store UInt32 UInt32 TokenBucketState :=
  ⟨runtime.qers, runtime.qerGenerations⟩

def RuntimeState.urrStore (runtime : RuntimeState) : Store UInt32 UInt32 UsageCounterState :=
  ⟨runtime.urrs, runtime.urrGenerations⟩

def RuntimeState.ofStores (qers : Store UInt32 UInt32 TokenBucketState)
    (urrs : Store UInt32 UInt32 UsageCounterState) : RuntimeState :=
  ⟨qers.entries, urrs.entries, qers.generations, urrs.generations⟩

/-- What a rule asks the stores to hold. -/
def Qer.item (qer : Qer) : Item UInt32 UInt32 TokenBucketState :=
  ⟨qer.id.value, qer.generation, freshTokens qer⟩

def Urr.item (urr : Urr) : Item UInt32 UInt32 UsageCounterState :=
  ⟨urr.id.value, urr.generation, {}⟩

/-! ## QER -/

structure QerEvaluation where
  decision : QerDecision
  next : TokenBucketState
  failure : TerminalResult
  deriving DecidableEq, Repr

/-- `std::min`. -/
def stdMin (a b : UInt64) : UInt64 := if b < a then b else a

/-- The facts `evaluateQer` fills in before its first test. -/
def qerFacts (qer : Qer) (current : TokenBucketState) (packetBytes : UInt64) : QerDecision :=
  { applicable := true
    qerId := qer.id.value
    gate := qer.gate
    tokensBefore := current.tokensBytes
    packetChargeBytes := packetBytes
    tokensAfter := current.tokensBytes }

/-- The two early returns on a time or an overflow. -/
def qerArithmeticError (qer : Qer) (current : TokenBucketState) (packetBytes : UInt64) :
    QerEvaluation :=
  { decision := { qerFacts qer current packetBytes with outcome := "ARITHMETIC_ERROR" }
    next := current
    failure := .arithmeticError }

/-- The checked multiplication of the elapsed time and the checked addition
of the remainder; `none` where either fails. -/
def qerNumerator (qer : Qer) (current : TokenBucketState) (nowMicros : UInt64) : Option UInt64 :=
  (checkedMultiply (nowMicros - current.lastRefillMicros) qer.rateBitsPerSecond).bind
    fun product => checkedAdd product current.remainderBitMicros

/-- `evaluateQer` from the point where `numerator` is known: refill up to
the burst, then charge. -/
def qerRefillAndCharge (qer : Qer) (current : TokenBucketState) (packetBytes nowMicros : UInt64)
    (numerator : UInt64) : QerEvaluation :=
  let facts := { qerFacts qer current packetBytes with refillBytes := numerator / 8000000 }
  let room := if qer.burstBytes > current.tokensBytes then qer.burstBytes - current.tokensBytes else 0
  let added := stdMin room (numerator / 8000000)
  let next : TokenBucketState :=
    { tokensBytes := current.tokensBytes + added
      lastRefillMicros := nowMicros
      remainderBitMicros := numerator % 8000000 }
  if packetBytes > next.tokensBytes then
    { decision := { facts with tokensAfter := next.tokensBytes, outcome := "RATE_LIMITED" }
      next := next
      failure := .rateLimited }
  else
    let next := { next with tokensBytes := next.tokensBytes - packetBytes }
    { decision := { facts with tokensAfter := next.tokensBytes, allowed := true, outcome := "ALLOW" }
      next := next
      failure := .rateLimited }

def evaluateQer (qer : Qer) (current : TokenBucketState) (packetBytes nowMicros : UInt64) :
    QerEvaluation :=
  if qer.gate = .closed then
    { decision := { qerFacts qer current packetBytes with outcome := "GATE_CLOSED" }
      next := current
      failure := .gateClosed }
  else if nowMicros < current.lastRefillMicros then
    qerArithmeticError qer current packetBytes
  else
    match qerNumerator qer current nowMicros with
    | none => qerArithmeticError qer current packetBytes
    | some numerator => qerRefillAndCharge qer current packetBytes nowMicros numerator

/-! ## FAR -/

structure FarEvaluation where
  valid : Bool := false
  forwarded : Bool := false
  destination : Interface := .n6
  packet : Packet
  deriving DecidableEq, Repr

def evaluateFar (far : Far) (packet : Packet) : FarEvaluation :=
  if far.action = .drop then
    { valid := far.destination.isNone && decide (far.operation = .tunnelNone), packet }
  else
    match far.destination with
    | none => { packet }
    | some destination =>
      if packet.ingress = .n3 ∧ destination = .n6 ∧ far.operation = .remove then
        { valid := true, forwarded := true, destination, packet := { packet with tunnel := none } }
      else if packet.ingress = .n6 ∧ destination = .n3 ∧ far.operation = .add ∧
          far.tunnel.isSome then
        { valid := true, forwarded := true, destination, packet := { packet with tunnel := far.tunnel } }
      else { destination, packet }

/-! ## URR -/

/-- The report ID `evaluateUrr` streams together. -/
def usageReportId (sessionId : String) (urrId generation : UInt32) (rulesetVersion : UInt64) :
    String :=
  sessionId ++ "-urr-" ++ toString urrId.toNat ++ "-g" ++ toString generation.toNat
    ++ "-v" ++ toString rulesetVersion.toNat

structure UrrEvaluation where
  next : UsageCounterState
  decision : UrrDecision
  reportGenerated : Bool := false
  overflow : Bool := false
  deriving DecidableEq, Repr

def evaluateUrr (urr : Urr) (current : UsageCounterState) (payloadBytes : UInt64)
    (sessionId : String) (rulesetVersion : UInt64) : UrrEvaluation :=
  let facts : UrrDecision :=
    { applicable := true
      urrId := urr.id.value
      counted := true
      packetsBefore := current.packets
      bytesBefore := current.payloadBytes }
  match checkedAdd current.packets 1, checkedAdd current.payloadBytes payloadBytes with
  | some packets, some bytes =>
    let facts := { facts with packetsAfter := packets, bytesAfter := bytes }
    if !current.reportEmitted ∧ bytes ≥ urr.volumeThresholdBytes then
      { next := { packets, payloadBytes := bytes, reportEmitted := true }
        decision := { facts with
          reportId := usageReportId sessionId urr.id.value urr.generation rulesetVersion
          thresholdReached := true }
        reportGenerated := true }
    else
      { next := { packets, payloadBytes := bytes, reportEmitted := current.reportEmitted }
        decision := facts }
  | _, _ => { next := current, decision := facts, overflow := true }

end UpfPolicy
