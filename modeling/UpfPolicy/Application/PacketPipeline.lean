/-
UpfPolicy.Application.PacketPipeline — `PacketPipeline`
(`upf/application/packet_pipeline.hpp`, `src/application/packet_pipeline.cpp`).

`install` and `process` are the two calls that change a pipeline. `process`
dereferences the results of `findQer`, `findFar` and `findUrr` without a
test; a dereferenced null pointer is the result `none` here, so that every
statement about a returned decision includes that there is one. The body
of `process` is cut at its four stages (QER, FAR, URR, commit); each stage
is a definition that hands its plan to the next.

`runtime_.qers[id]` and its three siblings are the inserting `operator[]`
(`Support.subscript`).
-/
import UpfPolicy.Domain.Matcher
import UpfPolicy.Domain.Engine

namespace UpfPolicy

open Support

variable [InetText]

structure PacketPipeline where
  limits : CapacityLimits
  rules : Option RuleSet := none
  runtime : RuntimeState := {}
  n3Sink : List Packet := []
  n6Sink : List Packet := []
  decisions : List PacketDecision := []
  reports : List String := []
  events : List String := []
  droppedEvents : UInt64 := 0

/-- A new pipeline. -/
def PacketPipeline.new (limits : CapacityLimits) : PacketPipeline := { limits }

namespace PacketPipeline

/-- An event was dropped. -/
def observabilityDegraded (p : PacketPipeline) : Bool := p.droppedEvents != 0

/-! ## Recording a decision -/

def retain (p : PacketPipeline) (decision : PacketDecision) : PacketDecision × PacketPipeline :=
  if p.events.length < p.limits.events.toNat then
    (decision,
      { p with
        events := p.events ++ [terminalResultName decision.terminalResult]
        decisions := p.decisions ++ [decision] })
  else
    let decision := { decision with observabilityDegraded := true }
    (decision,
      { p with
        droppedEvents := if p.droppedEvents ≠ uint64Max then p.droppedEvents + 1 else p.droppedEvents
        decisions := p.decisions ++ [decision] })

/-! ## Installing a ruleset -/

/-- One turn of either loop of `install`, on the maps of `runtime_` and of
`migrated` for the kind of rule the loop is about. -/
def migrateRule {σ : Type} [Inhabited σ] (maps : Store UInt32 UInt32 σ × Store UInt32 UInt32 σ)
    (rule : Item UInt32 UInt32 σ) : Store UInt32 UInt32 σ × Store UInt32 UInt32 σ :=
  let (runtime, migrated) := maps
  let (generation, generations) := subscript runtime.generations rule.key
  let runtime := { runtime with generations }
  let (runtime, state) :=
    if generation == rule.generation && runtime.entries.contains rule.key then
      let (state, entries) := subscript runtime.entries rule.key
      ({ runtime with entries }, state)
    else (runtime, rule.fresh)
  (runtime,
    { entries := migrated.entries.insert rule.key state
      generations := migrated.generations.insert rule.key rule.generation })

/-- The runtime state `install` leaves behind. The QER loop and the URR loop
touch different maps, so each runs on its own. -/
def migrate (runtime : RuntimeState) (rules : RuleSet) : RuntimeState :=
  .ofStores ((rules.qers.map Qer.item).foldl migrateRule (runtime.qerStore, {})).2
    ((rules.urrs.map Urr.item).foldl migrateRule (runtime.urrStore, {})).2

def install (p : PacketPipeline) (rules : RuleSet) : Except String Unit × PacketPipeline :=
  match validateRuleSet rules p.limits with
  | .error e => (.error e, p)
  | .ok () => (.ok (), { p with rules := some rules, runtime := migrate p.runtime rules })

/-! ## Processing a packet -/

def validPacket (packet : Packet) : Bool :=
  if packet.packetId.isEmpty || packet.sessionId.isEmpty then false
  else if packet.sourceIp.family ≠ packet.destinationIp.family then false
  else if packet.ingress = .n3 then packet.tunnel.any (·.valid)
  else packet.tunnel.isNone

/-- One turn of the PDR loop: the candidates so far and the winner so far. -/
def selectStep (packet : Packet) (found : List MatchCandidate × Option Pdr) (pdr : Pdr) :
    List MatchCandidate × Option Pdr :=
  let candidate := evaluateCandidate pdr packet
  (found.1 ++ [candidate],
    if candidate.matched && found.2.all (fun winner => decide (pdr.precedence < winner.precedence))
    then some pdr else found.2)

def selectPdr (pdrs : List Pdr) (packet : Packet) : List MatchCandidate × Option Pdr :=
  pdrs.foldl (selectStep packet) ([], none)

/-- `std::sort` by PDR ID. Installed PDR IDs are distinct, so there is one
sorted order for any sorting algorithm to return. -/
def sortCandidates (candidates : List MatchCandidate) : List MatchCandidate :=
  candidates.insertionSort (fun a b => a.pdrId ≤ b.pdrId)

/-- The decision before the first test of `process`. -/
def header (p : PacketPipeline) (packet : Packet) (runId scenarioId : String) : PacketDecision :=
  { runId, scenarioId
    packetId := packet.packetId
    sessionId := packet.sessionId
    arrivalTimeMicros := packet.arrivalTimeMicros
    ingress := packet.ingress
    rulesetVersion := (p.rules.map (·.version)).getD 0 }

/-- What the stages of `process` have planned and not yet committed. -/
structure Plan where
  tokens : Option (UInt32 × TokenBucketState) := none
  usage : Option (UInt32 × UrrEvaluation) := none

/-- `std::vector<Packet>* sink`: the sink of a destination. -/
def sinkOf (p : PacketPipeline) : Interface → List Packet
  | .n3 => p.n3Sink
  | .n6 => p.n6Sink

def pushSink (p : PacketPipeline) (packet : Packet) : Interface → PacketPipeline
  | .n3 => { p with n3Sink := p.n3Sink ++ [packet] }
  | .n6 => { p with n6Sink := p.n6Sink ++ [packet] }

/-- The writes of the plan to `runtime_` and `reports_`. -/
def commitPlan (p : PacketPipeline) (plan : Plan) : PacketPipeline :=
  let p := match plan.tokens with
    | none => p
    | some (id, next) => { p with runtime := { p.runtime with qers := p.runtime.qers.insert id next } }
  match plan.usage with
  | none => p
  | some (id, usage) =>
    { p with
      runtime := { p.runtime with urrs := p.runtime.urrs.insert id usage.next }
      reports := if usage.reportGenerated then p.reports ++ [usage.decision.reportId] else p.reports }

/-- From the sink capacity test to the end. -/
def commit (p : PacketPipeline) (decision : PacketDecision) (far : Far) (evaluation : FarEvaluation)
    (plan : Plan) : PacketDecision × PacketPipeline :=
  if evaluation.forwarded &&
      decide ((p.sinkOf evaluation.destination).length ≥ p.limits.sinkPackets.toNat) then
    p.retain { decision with terminalResult := .capacityError }
  else
    let p := p.commitPlan plan
    if far.action = .drop then
      p.retain { decision with terminalResult := .farDropped }
    else
      (p.pushSink evaluation.packet evaluation.destination).retain
        { decision with
          transformedPresent := true
          transformedPacket := some evaluation.packet
          sinkPresent := true
          sink := evaluation.destination
          terminalResult := if evaluation.destination = .n3 then .forwardedToN3 else .forwardedToN6 }

/-- The URR stage. -/
def accountUrr (p : PacketPipeline) (rules : RuleSet) (packet : Packet) (winner : Pdr)
    (decision : PacketDecision) (far : Far) (evaluation : FarEvaluation) (plan : Plan) :
    Option (PacketDecision × PacketPipeline) :=
  match winner.urrId with
  | none => some (p.commit decision far evaluation plan)
  | some urrId =>
    match findUrr rules urrId with
    | none => none
    | some urr =>
      let (current, urrs) := subscript p.runtime.urrs urr.id.value
      let p := { p with runtime := { p.runtime with urrs } }
      let usage := evaluateUrr urr current packet.payloadBytes.toUInt64 rules.sessionId rules.version
      let decision := { decision with urr := usage.decision }
      if usage.overflow then
        some (p.retain { decision with terminalResult := .arithmeticError })
      else if usage.reportGenerated && decide (p.reports.length ≥ p.limits.reports.toNat) then
        some (p.retain { decision with terminalResult := .capacityError })
      else some (p.commit decision far evaluation { plan with usage := some (urrId.value, usage) })

/-- The FAR stage. -/
def resolveFar (p : PacketPipeline) (rules : RuleSet) (packet : Packet) (winner : Pdr)
    (decision : PacketDecision) (plan : Plan) : Option (PacketDecision × PacketPipeline) :=
  match findFar rules winner.farId with
  | none => none
  | some far =>
    let evaluation := evaluateFar far packet
    if !evaluation.valid then
      some (p.retain { decision with terminalResult := .malformedPacket })
    else
      let decision := { decision with
        far := {
          applicable := true
          farId := far.id.value
          action := far.action
          destination := evaluation.destination
          before := packet.tunnel
          after := evaluation.packet.tunnel } }
      p.accountUrr rules packet winner decision far evaluation plan

/-- The QER stage. -/
def enforceQer (p : PacketPipeline) (rules : RuleSet) (packet : Packet) (winner : Pdr)
    (decision : PacketDecision) : Option (PacketDecision × PacketPipeline) :=
  match winner.qerId with
  | none =>
    p.resolveFar rules packet winner
      { decision with qer := { decision.qer with outcome := "NOT_APPLICABLE", allowed := true } } {}
  | some qerId =>
    match findQer rules qerId with
    | none => none
    | some qer =>
      let (current, qers) := subscript p.runtime.qers qer.id.value
      let p := { p with runtime := { p.runtime with qers } }
      let evaluation :=
        evaluateQer qer current packet.payloadBytes.toUInt64 packet.arrivalTimeMicros
      let decision := { decision with qer := evaluation.decision }
      if !evaluation.decision.allowed then
        let p :=
          if evaluation.failure = .rateLimited then
            { p with runtime := { p.runtime with
                qers := p.runtime.qers.insert qer.id.value evaluation.next } }
          else p
        some (p.retain { decision with terminalResult := evaluation.failure })
      else p.resolveFar rules packet winner decision { tokens := some (qerId.value, evaluation.next) }

def process (p : PacketPipeline) (packet : Packet) (runId scenarioId : String) :
    Option (PacketDecision × PacketPipeline) :=
  let decision := p.header packet runId scenarioId
  if p.decisions.length ≥ p.limits.results.toNat then
    some ({ decision with terminalResult := .capacityError }, p)
  else
    match p.rules with
    | none => some (p.retain { decision with terminalResult := .noMatch })
    | some rules =>
      if !validPacket packet || packet.sessionId != rules.sessionId then
        some (p.retain { decision with terminalResult := .malformedPacket })
      else
        let (candidates, winner) := selectPdr rules.pdrs packet
        let decision := { decision with candidates := sortCandidates candidates }
        match winner with
        | none => some (p.retain { decision with terminalResult := .noMatch })
        | some pdr => p.enforceQer rules packet pdr { decision with selectedPdrId := pdr.id.value }

end PacketPipeline

/-! ## Calls -/

/-- The calls that change a pipeline. -/
inductive PipelineCall where
  | install (rules : RuleSet)
  | process (packet : Packet) (runId scenarioId : String)

inductive PipelineReply where
  | installed (result : Except String Unit)
  | decided (decision : PacketDecision)

/-- One call on a pipeline; `none` is a null dereference in `process`. -/
def PacketPipeline.exec (p : PacketPipeline) : PipelineCall → Option (PipelineReply × PacketPipeline)
  | .install rules =>
    let (result, p) := p.install rules
    some (.installed result, p)
  | .process packet runId scenarioId =>
    (p.process packet runId scenarioId).map fun (decision, p) => (.decided decision, p)

end UpfPolicy
