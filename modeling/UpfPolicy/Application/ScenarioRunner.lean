/-
UpfPolicy.Application.ScenarioRunner — `ScenarioRunner`
(`upf/application/scenario_runner.hpp`,
`src/application/scenario_runner.cpp`).

The addresses of the scenarios are parsed from their texts, and `value()`
throws where `inet_pton` does not accept one. The two scenarios without a
pipeline build their decision by hand and leave its arrival time
uninitialised, and both renderers print it. To read it is undefined; the
parameter `indeterminate` is the value an implementation reads there all
the same, if it has one.
-/
import UpfPolicy.Adapters.SimulatedDataplane
import UpfPolicy.Application.PacketPipeline
import UpfPolicy.Domain.AddressText
import UpfPolicy.Support.Json

namespace UpfPolicy

open Support

/-! ## Runs -/

structure RunResult where
  runId : String := ""
  scenarioId : String := ""
  decisions : List PacketDecision := []
  usageReports : List String := []
  n3Sink : List Packet := []
  n6Sink : List Packet := []
  intendedVersion : UInt64 := 0
  appliedVersion : UInt64 := 0
  activeVersion : UInt64 := 0
  convergence : ConvergenceStatus := .empty
  observabilityDegraded : Bool := false
  droppedEvents : UInt64 := 0

/-- Packets processed one after the other; `none` is a null dereference in
`process`. -/
def processAll [InetText] (p : PacketPipeline) (runId scenarioId : String) :
    List Packet → Option (List PacketDecision × PacketPipeline)
  | [] => some ([], p)
  | packet :: rest =>
    match p.process packet runId scenarioId with
    | none => none
    | some (d, p) => (processAll p runId scenarioId rest).map fun (ds, p) => (d :: ds, p)

/-- `Result::value()`, which throws the error of a failed result. -/
def valueOf {α : Type} : Except String α → Outcome α
  | .ok a => .value a
  | .error e => .threw e

namespace ScenarioRunner

/-! ## Rules and packets -/

section Fixtures

variable [InetPton]

def uplinkRules : Outcome RuleSet := do
  let uePrefix ← valueOf (IpPrefix.parse "10.10.0.0/24")
  return {
    sessionId := "session-1"
    version := 3
    pdrs := [{
      id := ⟨10⟩, precedence := 100, sourceInterface := .n3, teid := some 1001, uePrefix
      protocol := some .udp, localPorts := some ⟨41000, 41000⟩, remotePorts := some ⟨443, 443⟩
      qfi := some 9, farId := ⟨20⟩, qerId := some ⟨30⟩, urrId := some ⟨40⟩ }]
    fars := [{ id := ⟨20⟩, action := .forward, destination := some .n6, operation := .remove }]
    qers := [{ id := ⟨30⟩, gate := .opened, rateBitsPerSecond := 10000000, burstBytes := 20000 }]
    urrs := [{ id := ⟨40⟩, volumeThresholdBytes := 10000 }] }

def uplinkPacket : Outcome Packet := do
  let sourceIp ← valueOf (IpAddress.parse "10.10.0.7")
  let destinationIp ← valueOf (IpAddress.parse "192.0.2.20")
  return {
    packetId := "pkt-ul-001", sessionId := "session-1", ingress := .n3, tunnel := some ⟨1001, 9⟩
    sourceIp, destinationIp, protocol := .udp, sourcePort := 41000, destinationPort := 443
    payloadBytes := 1200, arrivalTimeMicros := 0 }

def downlinkRules : Outcome RuleSet := do
  let uePrefix ← valueOf (IpPrefix.parse "10.10.0.0/24")
  return {
    sessionId := "session-1"
    version := 3
    pdrs := [{
      id := ⟨11⟩, precedence := 100, sourceInterface := .n6, uePrefix
      protocol := some .udp, localPorts := some ⟨41000, 41000⟩, remotePorts := some ⟨443, 443⟩
      farId := ⟨21⟩, qerId := some ⟨31⟩, urrId := some ⟨41⟩ }]
    fars := [{
      id := ⟨21⟩, action := .forward, destination := some .n3, operation := .add
      tunnel := some ⟨2001, 9⟩ }]
    qers := [{ id := ⟨31⟩, gate := .opened, rateBitsPerSecond := 10000000, burstBytes := 20000 }]
    urrs := [{ id := ⟨41⟩, volumeThresholdBytes := 10000 }] }

def downlinkPacket : Outcome Packet := do
  let sourceIp ← valueOf (IpAddress.parse "192.0.2.20")
  let destinationIp ← valueOf (IpAddress.parse "10.10.0.7")
  return {
    packetId := "pkt-dl-001", sessionId := "session-1", ingress := .n6, tunnel := none
    sourceIp, destinationIp, protocol := .udp, sourcePort := 443, destinationPort := 41000
    payloadBytes := 900, arrivalTimeMicros := 0 }

end Fixtures

/-! ## Scenarios -/

def scenarioNames : List String :=
  ["uplink-forward", "downlink-forward", "pdr-precedence", "qer-rate-limit", "urr-threshold",
    "adapter-failure", "queue-full", "overload", "recovery", "shutdown"]

def runId : String := "upf-demo-001"

section Run

variable [InetText] [InetPton]

omit [InetPton] in
/-- `pipeline.install(rules)` and `pipeline.process` for each packet. The
result of `install` is not looked at. -/
def play (limits : CapacityLimits) (rules : RuleSet) (packets : List Packet) (name : String) :
    Outcome (List PacketDecision × PacketPipeline) :=
  match processAll ((PacketPipeline.new limits).install rules).2 runId name packets with
  | none => .undefined
  | some played => .value played

omit [InetText] [InetPton] in
/-- The statements after the chain of scenarios, without the last `if`. -/
def observe (result : RunResult) (pipeline : PacketPipeline) : RunResult :=
  { result with
    n3Sink := pipeline.n3Sink
    n6Sink := pipeline.n6Sink
    usageReports := pipeline.reports
    observabilityDegraded := pipeline.observabilityDegraded
    droppedEvents := pipeline.droppedEvents }

omit [InetText] [InetPton] in
/-- The last `if`. -/
def converged (result : RunResult) : RunResult :=
  { result with
    intendedVersion := 3
    appliedVersion := 3
    activeVersion := 3
    convergence := .converged }

/-- The scenarios that play packets on a pipeline. -/
def runPlayed (limits : CapacityLimits) (rules : Outcome RuleSet) (packets : Outcome (List Packet))
    (name : String) : Outcome RunResult := do
  let rules ← rules
  let packets ← packets
  let (decisions, pipeline) ← play limits rules packets name
  return converged (observe { runId, scenarioId := name, decisions } pipeline)

/-- The scenarios that reconcile a rule service first. -/
def runReconciled (name : String) : Outcome RunResult := do
  let rules ← uplinkRules
  let service := ((RuleService.new {}).update "update-3" rules).2
  let adapter := SimulatedDataplane.new [{ outcome := .transientFailure }, { outcome := .success }]
  match ReconciliationController.reconcile SimulatedDataplane.port 3 3 service adapter with
  | none => .undefined
  | some (status, service, _) =>
    let packet ← uplinkPacket
    let (decisions, pipeline) ← play {} rules [packet] name
    return observe {
      runId, scenarioId := name, decisions
      intendedVersion := rules.version
      activeVersion := rules.version
      appliedVersion := service.appliedVersion
      convergence := if status.converged then .converged else .divergent } pipeline

omit [InetText] [InetPton] in
/-- A member that was never written is read. -/
def readUnwritten (indeterminate : Option UInt64) : Outcome UInt64 :=
  match indeterminate with
  | none => .undefined
  | some value => .value value

/-- The scenarios that end before a pipeline is reached. -/
def runClassified (indeterminate : Option UInt64) (name : String) : Outcome RunResult := do
  let packet ← uplinkPacket
  -- no statement writes it before it is copied and printed
  let arrivalTimeMicros ← readUnwritten indeterminate
  let classified : PacketDecision := {
    runId, scenarioId := name, packetId := packet.packetId, sessionId := packet.sessionId
    arrivalTimeMicros, ingress := packet.ingress, rulesetVersion := 3
    terminalResult := if name = "queue-full" then .packetQueueFull else .shutdownDeadline }
  return converged
    (observe { runId, scenarioId := name, decisions := [classified] } (PacketPipeline.new {}))

/-- `ScenarioRunner::run`. -/
def run (indeterminate : Option UInt64) (name : String) : Outcome RunResult :=
  if name = "downlink-forward" then
    runPlayed {} downlinkRules ((fun packet => [packet]) <$> downlinkPacket) name
  else if name = "qer-rate-limit" then
    runPlayed {} uplinkRules
      ((fun packet => [{ packet with packetId := "pkt-rate-001", payloadBytes := 19000 },
        { packet with packetId := "pkt-rate-002", payloadBytes := 2000 }]) <$> uplinkPacket) name
  else if name = "urr-threshold" then
    runPlayed {} uplinkRules
      ((fun packet => [{ packet with packetId := "pkt-urr-001", payloadBytes := 10000 }])
        <$> uplinkPacket) name
  else if name = "pdr-precedence" then
    runPlayed {}
      ((fun rules => { rules with
        pdrs := rules.pdrs ++ (rules.pdrs.take 1).map fun pdr =>
          { pdr with id := ⟨11⟩, precedence := 200 } }) <$> uplinkRules)
      ((fun packet => [packet]) <$> uplinkPacket) name
  else if name = "adapter-failure" ∨ name = "recovery" then runReconciled name
  else if name = "overload" then
    runPlayed { events := 0 } uplinkRules ((fun packet => [packet]) <$> uplinkPacket) name
  else if name = "queue-full" ∨ name = "shutdown" then runClassified indeterminate name
  else runPlayed {} uplinkRules ((fun packet => [packet]) <$> uplinkPacket) name

end Run

end ScenarioRunner

end UpfPolicy
