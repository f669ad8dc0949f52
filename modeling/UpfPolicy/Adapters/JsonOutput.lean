/-
UpfPolicy.Adapters.JsonOutput — the result of a run as a JSON document
(`src/adapters/json_output.cpp`).

`renderJson` is the value `root` that the source builds; writing it out as
text (`root.dump()`) belongs to the JSON library. The members are listed in
the order in which the source writes them.
-/
import UpfPolicy.Application.ScenarioRunner
import UpfPolicy.Support.Json

namespace UpfPolicy

open Support

def interfaceName : Interface → String
  | .n3 => "N3"
  | .n6 => "N6"

/-- A number of 32 or of 8 bits is stored in the library's unsigned type. -/
def unsigned32 (n : UInt32) : Json := .unsigned n.toUInt64

def unsigned8 (n : UInt8) : Json := .unsigned n.toUInt64

/-- `condition ? json(value) : json()`. -/
def nullUnless (condition : Bool) (value : Json) : Json := if condition then value else .null

/-! ## Packets -/

def tunnelJson : Option TunnelMetadata → Json
  | none => .null
  | some tunnel => .object [("teid", unsigned32 tunnel.teid), ("qfi", unsigned8 tunnel.qfi)]

def protocolName : TransportProtocol → String
  | .tcp => "TCP"
  | .udp => "UDP"
  | .icmp => "ICMP"
  | .icmpv6 => "ICMPV6"

def packetJson [InetText] (packet : Packet) : Json :=
  .object ([
    ("packetId", .string packet.packetId), ("sessionId", .string packet.sessionId),
    ("ingress", .string (interfaceName packet.ingress)),
    ("sourceIp", .string packet.sourceIp.toString),
    ("destinationIp", .string packet.destinationIp.toString),
    ("protocol", .string (protocolName packet.protocol)),
    ("sourcePort", .unsigned packet.sourcePort.toUInt64),
    ("destinationPort", .unsigned packet.destinationPort.toUInt64),
    ("payloadBytes", unsigned32 packet.payloadBytes),
    ("arrivalTimeMicros", .unsigned packet.arrivalTimeMicros)]
    ++ if packet.tunnel.isSome then [("tunnel", tunnelJson packet.tunnel)] else [])

/-! ## Decisions -/

def criterionJson (item : CriterionResult) : Json :=
  .object [
    ("name", .string item.name), ("applicable", .boolean item.applicable),
    ("matched", nullUnless item.applicable (.boolean item.matched)),
    ("actual", nullUnless (!item.actual.isEmpty) (.string item.actual)),
    ("expected", nullUnless (!item.expected.isEmpty) (.string item.expected))]

def candidateJson (candidate : MatchCandidate) : Json :=
  .object [
    ("pdrId", unsigned32 candidate.pdrId), ("matched", .boolean candidate.matched),
    ("criteria", .array (candidate.criteria.map criterionJson))]

def qerJson (d : QerDecision) : Json :=
  .object [
    ("qerId", nullUnless d.applicable (unsigned32 d.qerId)),
    ("gate", .string (if d.applicable then
        if d.gate = .opened then "OPEN" else "CLOSED"
      else "NOT_APPLICABLE")),
    ("tokensBefore", nullUnless d.applicable (.unsigned d.tokensBefore)),
    ("refillBytes", nullUnless d.applicable (.unsigned d.refillBytes)),
    ("packetChargeBytes", nullUnless d.applicable (.unsigned d.packetChargeBytes)),
    ("tokensAfter", nullUnless d.applicable (.unsigned d.tokensAfter)),
    ("outcome", .string (if d.applicable then d.outcome else "NOT_APPLICABLE"))]

def farJson (d : FarDecision) : Json :=
  .object [
    ("farId", nullUnless d.applicable (unsigned32 d.farId)),
    ("action", .string (if d.applicable then
        if d.action = .forward then "FORWARD" else "DROP"
      else "NOT_APPLICABLE")),
    ("destination", .string (if d.applicable then
        if d.action = .drop then "NONE" else interfaceName d.destination
      else "NOT_APPLICABLE")),
    ("tunnelBefore", tunnelJson d.before), ("tunnelAfter", tunnelJson d.after)]

def urrJson (d : UrrDecision) : Json :=
  .object [
    ("urrId", nullUnless d.applicable (unsigned32 d.urrId)), ("counted", .boolean d.counted),
    ("packetsBefore", nullUnless d.applicable (.unsigned d.packetsBefore)),
    ("packetsAfter", nullUnless d.applicable (.unsigned d.packetsAfter)),
    ("bytesBefore", nullUnless d.applicable (.unsigned d.bytesBefore)),
    ("bytesAfter", nullUnless d.applicable (.unsigned d.bytesAfter)),
    ("thresholdReached", nullUnless d.applicable (.boolean d.thresholdReached)),
    ("usageReportId", nullUnless (!d.reportId.isEmpty) (.string d.reportId))]

/-- A transformed packet is set wherever it is marked as present. -/
def decisionJson [InetText] (d : PacketDecision) : Json :=
  .object [
    ("packetId", .string d.packetId), ("sessionId", .string d.sessionId),
    ("arrivalTimeMicros", .unsigned d.arrivalTimeMicros),
    ("ingress", .string (interfaceName d.ingress)),
    ("rulesetVersion", .unsigned d.rulesetVersion),
    ("updateId", nullUnless (!d.updateId.isEmpty) (.string d.updateId)),
    ("candidates", .array (d.candidates.map candidateJson)),
    ("selectedPdrId", nullUnless (d.selectedPdrId != 0) (unsigned32 d.selectedPdrId)),
    ("qer", qerJson d.qer), ("far", farJson d.far), ("urr", urrJson d.urr),
    ("terminalResult", .string (terminalResultName d.terminalResult)),
    ("sink", .string (if d.sinkPresent then interfaceName d.sink else "NONE")),
    ("transformedPacket",
      nullUnless d.transformedPresent ((d.transformedPacket.map packetJson).getD .null)),
    ("observabilityDegraded", .boolean d.observabilityDegraded)]

/-! ## Events and reports -/

/-- The event of the decision at an index. -/
def eventJson (result : RunResult) (i : Nat) (decision : PacketDecision) : Json :=
  .object [
    ("schemaVersion", .string "1.0"), ("runId", .string result.runId),
    ("scenarioId", .string result.scenarioId), ("sequence", .unsigned (.ofNat (i + 1))),
    ("simulatedTimeMicros", .unsigned decision.arrivalTimeMicros),
    ("component", .string "packet-pipeline"), ("severity", .string "INFO"),
    ("kind", .string "terminal-result"), ("sessionId", .string decision.sessionId),
    ("packetId", .string decision.packetId), ("updateId", .null),
    ("rulesetVersion", .unsigned decision.rulesetVersion),
    ("data", .object [("terminalResult", .string (terminalResultName decision.terminalResult))])]

def usageReportJson (decision : PacketDecision) : Json :=
  .object [
    ("reportId", .string decision.urr.reportId), ("sessionId", .string decision.sessionId),
    ("urrId", unsigned32 decision.urr.urrId), ("generation", .integer 1),
    ("rulesetVersion", .unsigned decision.rulesetVersion),
    ("packets", .unsigned decision.urr.packetsAfter),
    ("payloadBytes", .unsigned decision.urr.bytesAfter),
    ("thresholdBytes", .unsigned decision.urr.bytesAfter)]

/-- `if (!decision.urr.reportId.empty())` in the loop over the decisions. -/
def usageReports (decisions : List PacketDecision) : List Json :=
  (decisions.filter fun d => !d.urr.reportId.isEmpty).map usageReportJson

/-! ## The document -/

def convergenceName : ConvergenceStatus → String
  | .converged => "CONVERGED"
  | .empty => "EMPTY"
  | .divergent => "DIVERGENT"

def versionJson (version : UInt64) : Json := nullUnless (version != 0) (.unsigned version)

def disclaimer : String :=
  "Simulation-only educational demo; not a conformant or production PFCP, GTP-U, or UPF implementation."

def renderJson [InetText] (result : RunResult) : Json :=
  .object [
    ("schemaVersion", .string "1.0"), ("runId", .string result.runId),
    ("scenarioId", .string result.scenarioId), ("disclaimer", .string disclaimer),
    ("decisions", .array (result.decisions.map decisionJson)),
    ("events", .array (result.decisions.mapIdx (eventJson result))),
    ("usageReports", .array (usageReports result.decisions)),
    ("n3Sink", .array (result.n3Sink.map packetJson)),
    ("n6Sink", .array (result.n6Sink.map packetJson)),
    ("state", .object [
      ("intendedVersion", versionJson result.intendedVersion),
      ("appliedVersion", versionJson result.appliedVersion),
      ("activeVersion", versionJson result.activeVersion),
      ("convergence", .string (convergenceName result.convergence))]),
    ("observabilityDegraded", .boolean result.observabilityDegraded),
    ("droppedEventCount", .unsigned result.droppedEvents)]

end UpfPolicy
