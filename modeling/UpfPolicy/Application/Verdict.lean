/-
UpfPolicy.Application.Verdict — what a packet gets, and what it writes.

`PacketPipeline.process` threads the whole pipeline through its stages. A
`Verdict` is the same computation with the two parts pulled apart: the
decision, and an `Effect` of at most one token state, one counter state,
one report ID and one sent packet. A verdict is computed from a `View`:
the entries of the cited QER and URR, and which of the three capacities
are used up. Nothing else of the pipeline decides over a packet.

`Application.VerdictTheorems` proves that `process` applies the effect of
the verdict and records its decision.
-/
import UpfPolicy.Application.SelectionTheorems

namespace UpfPolicy

open Support

/-! ## Effects -/

/-- What a packet writes, apart from the record of its decision. -/
structure Effect where
  tokens : Option (UInt32 × TokenBucketState) := none
  usage : Option (UInt32 × UsageCounterState) := none
  report : Option String := none
  sent : Option (Interface × Packet) := none

/-- The packet sent to one side, if any. -/
def Effect.sentTo (e : Effect) (side : Interface) : List Packet :=
  match e.sent with
  | none => []
  | some (destination, packet) => if destination = side then [packet] else []

structure Verdict where
  decision : PacketDecision
  effect : Effect := {}

def PacketPipeline.applyEffect (p : PacketPipeline) (e : Effect) : PacketPipeline :=
  { p with
    runtime := { p.runtime with
      qers := write p.runtime.qers e.tokens
      urrs := write p.runtime.urrs e.usage }
    reports := p.reports ++ e.report.toList
    n3Sink := p.n3Sink ++ e.sentTo .n3
    n6Sink := p.n6Sink ++ e.sentTo .n6 }

/-- Apply the effect of a verdict, then record its decision. -/
def PacketPipeline.settle (p : PacketPipeline) (v : Verdict) : PacketDecision × PacketPipeline :=
  (p.applyEffect v.effect).retain v.decision

/-! ## Views -/

/-- What a verdict reads besides the ruleset and the packet. -/
structure View where
  tokens : UInt32 → TokenBucketState
  usage : UInt32 → UsageCounterState
  reportsFull : Bool
  sinkFull : Interface → Bool

namespace View

/-- The commit stage. -/
def commit (v : View) (decision : PacketDecision) (far : Far) (evaluation : FarEvaluation)
    (planned : Effect) : Verdict :=
  if evaluation.forwarded && v.sinkFull evaluation.destination then
    ⟨{ decision with terminalResult := .capacityError }, {}⟩
  else if far.action = .drop then
    ⟨{ decision with terminalResult := .farDropped }, planned⟩
  else
    ⟨{ decision with
        transformedPresent := true
        transformedPacket := some evaluation.packet
        sinkPresent := true
        sink := evaluation.destination
        terminalResult := if evaluation.destination = .n3 then .forwardedToN3 else .forwardedToN6 },
      { planned with sent := some (evaluation.destination, evaluation.packet) }⟩

/-- The writes of a counted packet. -/
def countedEffect (planned : Effect) (urrId : UInt32) (usage : UrrEvaluation) : Effect :=
  { planned with
    usage := some (urrId, usage.next)
    report := if usage.reportGenerated then some usage.decision.reportId else none }

/-- The URR stage. -/
def account (v : View) (rules : RuleSet) (packet : Packet) (winner : Pdr) (decision : PacketDecision)
    (far : Far) (planned : Effect) : Verdict :=
  match citedUrr rules winner with
  | none => v.commit decision far (evaluateFar far packet) planned
  | some urr =>
    let usage := evaluateUrr urr (v.usage urr.id.value) packet.payloadBytes.toUInt64
      rules.sessionId rules.version
    let decision := { decision with urr := usage.decision }
    if usage.overflow then ⟨{ decision with terminalResult := .arithmeticError }, {}⟩
    else if usage.reportGenerated && v.reportsFull then
      ⟨{ decision with terminalResult := .capacityError }, {}⟩
    else
      v.commit decision far (evaluateFar far packet) (countedEffect planned urr.id.value usage)

/-- The FAR stage, on the FAR of a winner. -/
def resolve (v : View) (rules : RuleSet) (packet : Packet) (winner : Pdr) (decision : PacketDecision)
    (far : Far) (planned : Effect) : Verdict :=
  let evaluation := evaluateFar far packet
  let decision := { decision with
    far := {
      applicable := true
      farId := far.id.value
      action := far.action
      destination := evaluation.destination
      before := packet.tunnel
      after := evaluation.packet.tunnel } }
  v.account rules packet winner decision far planned

/-- The QER stage. -/
def enforce (v : View) (rules : RuleSet) (packet : Packet) (winner : Pdr) (decision : PacketDecision)
    (far : Far) : Verdict :=
  match citedQer rules winner with
  | none =>
    v.resolve rules packet winner
      { decision with qer := { decision.qer with outcome := "NOT_APPLICABLE", allowed := true } }
      far {}
  | some qer =>
    let evaluation := evaluateQer qer (v.tokens qer.id.value) packet.payloadBytes.toUInt64
      packet.arrivalTimeMicros
    let decision := { decision with qer := evaluation.decision }
    let planned : Effect := { tokens := some (qer.id.value, evaluation.next) }
    if evaluation.decision.allowed then v.resolve rules packet winner decision far planned
    else
      ⟨{ decision with terminalResult := evaluation.failure },
        if evaluation.failure = .rateLimited then planned else {}⟩

end View

/-! ## The verdict of a pipeline -/

namespace PacketPipeline

/-- What the pipeline shows to a verdict. -/
def view (p : PacketPipeline) : View where
  tokens id := p.runtime.qers[id]?.getD default
  usage id := p.runtime.urrs[id]?.getD default
  reportsFull := decide (p.reports.length ≥ p.limits.reports.toNat)
  sinkFull side := decide ((p.sinkOf side).length ≥ p.limits.sinkPackets.toNat)

variable [InetText]

/-- The winner of a packet that is tried at all: one that is valid and of
the installed session. -/
def triedWinner (p : PacketPipeline) (packet : Packet) : Option (RuleSet × Pdr) :=
  p.rules.bind fun rules =>
    if !validPacket packet || packet.sessionId != rules.sessionId then none
    else (selectPdr rules.pdrs packet).2.map fun winner => (rules, winner)

/-- The decision a packet gets to before the QER stage. -/
def triedDecision (p : PacketPipeline) (packet : Packet) (runId scenarioId : String)
    (rules : RuleSet) : PacketDecision :=
  { p.header packet runId scenarioId with
    candidates := sortCandidates (selectPdr rules.pdrs packet).1 }

/-- The verdict over a packet while there is room for its result. -/
def verdict (p : PacketPipeline) (packet : Packet) (runId scenarioId : String) : Verdict :=
  let decision := p.header packet runId scenarioId
  match p.rules with
  | none => ⟨{ decision with terminalResult := .noMatch }, {}⟩
  | some rules =>
    if !validPacket packet || packet.sessionId != rules.sessionId then
      ⟨{ decision with terminalResult := .malformedPacket }, {}⟩
    else
      let decision := p.triedDecision packet runId scenarioId rules
      match (selectPdr rules.pdrs packet).2 with
      | none => ⟨{ decision with terminalResult := .noMatch }, {}⟩
      | some winner =>
        let decision := { decision with selectedPdrId := winner.id.value }
        match findFar rules winner.farId with
        | none => ⟨decision, {}⟩
        | some far => p.view.enforce rules packet winner decision far

end PacketPipeline

end UpfPolicy
