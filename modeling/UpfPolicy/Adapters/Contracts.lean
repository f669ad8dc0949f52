/-
UpfPolicy.Adapters.Contracts — the published contracts of the documents
(`contracts/rules.schema.json`, `contracts/packets.schema.json` and
`contracts/result.schema.json`).

Each definition of a schema file keeps its name, and its members stand in
the order of the file.
-/
import UpfPolicy.Support.JsonSchema

namespace UpfPolicy.Contracts

open Support Support.Schema

/-! ## Definitions that the files share -/

/-- `[A-Za-z0-9._-]`. -/
def idCharacter (c : Char) : Bool := c.isAlphanum || c == '.' || c == '_' || c == '-'

def nonEmptyId : Schema :=
  allOf [typed [.string], minLength 1, maxLength 64, pattern idCharacter]

def ruleId : Schema := integerIn 1 4294967295

def uint64 : Schema := integerIn 0 18446744073709551615

def port : Schema := integerIn 0 65535

def interface : Schema := enum ["N3", "N6"]

def transport : Schema := enum ["TCP", "UDP", "ICMP", "ICMPV6"]

def qfi : Schema := integerIn 1 63

def tunnel : Schema := record ["teid", "qfi"] [("teid", integerIn 1 4294967295), ("qfi", qfi)]

/-! ## `rules.schema.json` -/

def positiveLimit : Schema := integerIn 1 1000000

def limitNames : List String :=
  ["maxSessions", "maxRulesPerType", "packetQueue", "controlQueue", "reconciliationQueue", "reports",
    "results", "events", "sinkPackets"]

def limits : Schema := record limitNames (limitNames.map fun name => (name, positiveLimit))

def portRange : Schema := record ["first", "last"] [("first", port), ("last", port)]

def pdr : Schema :=
  record ["id", "precedence", "sourceInterface", "uePrefix", "farId"] [
    ("id", ruleId),
    ("precedence", integerIn 0 4294967295),
    ("sourceInterface", interface),
    ("teid", integerIn 1 4294967295),
    ("uePrefix", allOf [typed [.string], minLength 3, maxLength 64]),
    ("protocol", transport),
    ("localPorts", portRange),
    ("remotePorts", portRange),
    ("qfi", qfi),
    ("farId", ruleId),
    ("qerId", ruleId),
    ("urrId", ruleId)]

def far : Schema :=
  record ["id", "action"] [
    ("id", ruleId),
    ("action", enum ["FORWARD", "DROP"]),
    ("destinationInterface", interface),
    ("tunnelOperation", enum ["ADD", "REMOVE"]),
    ("tunnel", tunnel)]

def qer : Schema :=
  record ["id", "gate", "rateBitsPerSecond", "burstBytes", "generation"] [
    ("id", ruleId),
    ("gate", enum ["OPEN", "CLOSED"]),
    ("rateBitsPerSecond", uint64),
    ("burstBytes", uint64),
    ("qfi", qfi),
    ("generation", integerIn 1 4294967295)]

def urr : Schema :=
  record ["id", "volumeThresholdBytes", "generation"] [
    ("id", ruleId),
    ("volumeThresholdBytes", integerIn 1 18446744073709551615),
    ("generation", integerIn 1 4294967295)]

def rules : Schema :=
  record ["schemaVersion", "sessionId", "rulesetVersion", "limits", "pdrs", "fars", "qers", "urrs"] [
    ("schemaVersion", enum ["1.0"]),
    ("sessionId", nonEmptyId),
    ("rulesetVersion", integerIn 1 18446744073709551615),
    ("limits", limits),
    ("pdrs", arrayOf pdr),
    ("fars", arrayOf far),
    ("qers", arrayOf qer),
    ("urrs", arrayOf urr)]

/-! ## `packets.schema.json` -/

def address : Schema := allOf [typed [.string], minLength 2, maxLength 45]

def packet : Schema :=
  record ["packetId", "sessionId", "ingress", "sourceIp", "destinationIp", "protocol", "sourcePort",
      "destinationPort", "payloadBytes", "arrivalTimeMicros"] [
    ("packetId", nonEmptyId),
    ("sessionId", nonEmptyId),
    ("ingress", interface),
    ("tunnel", tunnel),
    ("sourceIp", address),
    ("destinationIp", address),
    ("protocol", transport),
    ("sourcePort", port),
    ("destinationPort", port),
    ("payloadBytes", integerIn 0 4294967295),
    ("arrivalTimeMicros", uint64)]

def retry : Schema :=
  record ["maxAttempts", "delaysMicros"] [
    ("maxAttempts", integerIn 1 100), ("delaysMicros", arrayOf uint64)]

def packets : Schema :=
  record ["schemaVersion", "runId", "scenarioId", "packets"] [
    ("schemaVersion", enum ["1.0"]),
    ("runId", nonEmptyId),
    ("scenarioId", nonEmptyId),
    ("packets", allOf [typed [.array], minItems 1, items packet]),
    ("adapterOutcomes", arrayOf
      (enum ["SUCCESS", "DELAYED_SUCCESS", "TRANSIENT_FAILURE", "PERMANENT_FAILURE"])),
    ("retry", retry),
    ("shutdownDeadlineMicros", uint64)]

/-! ## The decisions of `result.schema.json` -/

def nullableId : Schema := allOf [typed [.integer, .null], minimum 1]

def nullableCount : Schema := allOf [typed [.integer, .null], minimum 0]

def criterion : Schema :=
  record ["name", "applicable", "matched", "actual", "expected"] [
    ("name",
      enum ["ingress", "tunnel", "prefix", "protocol", "localPort", "remotePort", "qfi"]),
    ("applicable", typed [.boolean]),
    ("matched", typed [.boolean, .null]),
    ("actual", typed [.string, .integer, .null]),
    ("expected", typed [.string, .integer, .null])]

def candidate : Schema :=
  record ["pdrId", "matched", "criteria"] [
    ("pdrId", integerFrom 1),
    ("matched", typed [.boolean]),
    ("criteria", arrayOf criterion)]

/-- The tunnel of a result, which may be null. -/
def nullableTunnel : Schema :=
  allOf [typed [.object, .null], fields ["teid", "qfi"] [
    ("teid", integerFrom 1), ("qfi", qfi)]]

def qerResult : Schema :=
  record ["qerId", "gate", "tokensBefore", "refillBytes", "packetChargeBytes", "tokensAfter",
      "outcome"] [
    ("qerId", nullableId),
    ("gate", enum ["OPEN", "CLOSED", "NOT_APPLICABLE"]),
    ("tokensBefore", nullableCount),
    ("refillBytes", nullableCount),
    ("packetChargeBytes", nullableCount),
    ("tokensAfter", nullableCount),
    ("outcome", enum ["ALLOW", "GATE_CLOSED", "RATE_LIMITED", "NOT_APPLICABLE"])]

def farResult : Schema :=
  record ["farId", "action", "destination", "tunnelBefore", "tunnelAfter"] [
    ("farId", nullableId),
    ("action", enum ["FORWARD", "DROP", "NOT_APPLICABLE"]),
    ("destination", enum ["N3", "N6", "NONE", "NOT_APPLICABLE"]),
    ("tunnelBefore", nullableTunnel),
    ("tunnelAfter", nullableTunnel)]

def urrResult : Schema :=
  record ["urrId", "counted", "packetsBefore", "packetsAfter", "bytesBefore", "bytesAfter",
      "thresholdReached", "usageReportId"] [
    ("urrId", nullableId),
    ("counted", typed [.boolean]),
    ("packetsBefore", nullableCount),
    ("packetsAfter", nullableCount),
    ("bytesBefore", nullableCount),
    ("bytesAfter", nullableCount),
    ("thresholdReached", typed [.boolean, .null]),
    ("usageReportId", typed [.string, .null])]

def decision : Schema :=
  record ["packetId", "sessionId", "arrivalTimeMicros", "ingress", "rulesetVersion", "updateId",
      "candidates", "selectedPdrId", "qer", "far", "urr", "terminalResult", "sink",
      "transformedPacket", "observabilityDegraded"] [
    ("packetId", typed [.string]),
    ("sessionId", typed [.string]),
    ("arrivalTimeMicros", integerFrom 0),
    ("ingress", interface),
    ("rulesetVersion", integerFrom 1),
    ("updateId", typed [.string, .null]),
    ("candidates", arrayOf candidate),
    ("selectedPdrId", nullableId),
    ("qer", qerResult),
    ("far", farResult),
    ("urr", urrResult),
    ("terminalResult", enum ["FORWARDED_TO_N3", "FORWARDED_TO_N6", "FAR_DROPPED", "NO_MATCH",
      "MALFORMED_PACKET", "GATE_CLOSED", "RATE_LIMITED", "PACKET_QUEUE_FULL", "SHUTDOWN_DEADLINE",
      "ARITHMETIC_ERROR", "CAPACITY_ERROR"]),
    ("sink", enum ["N3", "N6", "NONE"]),
    ("transformedPacket", oneOf [packet, typed [.null]]),
    ("observabilityDegraded", typed [.boolean])]

/-! ## The rest of `result.schema.json` -/

def usageReport : Schema :=
  record ["reportId", "sessionId", "urrId", "generation", "rulesetVersion", "packets",
      "payloadBytes", "thresholdBytes"] [
    ("reportId", typed [.string]),
    ("sessionId", typed [.string]),
    ("urrId", integerFrom 1),
    ("generation", integerFrom 1),
    ("rulesetVersion", integerFrom 1),
    ("packets", integerFrom 1),
    ("payloadBytes", integerFrom 0),
    ("thresholdBytes", integerFrom 1)]

def state : Schema :=
  record ["intendedVersion", "appliedVersion", "activeVersion", "convergence"] [
    ("intendedVersion", nullableId),
    ("appliedVersion", nullableId),
    ("activeVersion", nullableId),
    ("convergence", enum ["CONVERGED", "DIVERGENT", "EMPTY"])]

def event : Schema :=
  record ["schemaVersion", "runId", "scenarioId", "sequence", "simulatedTimeMicros", "component",
      "severity", "kind", "sessionId", "packetId", "updateId", "rulesetVersion", "data"] [
    ("schemaVersion", enum ["1.0"]),
    ("runId", typed [.string]),
    ("scenarioId", typed [.string]),
    ("sequence", integerFrom 1),
    ("simulatedTimeMicros", integerFrom 0),
    ("component", typed [.string]),
    ("severity", enum ["INFO", "WARNING", "ERROR"]),
    ("kind", typed [.string]),
    ("sessionId", typed [.string, .null]),
    ("packetId", typed [.string, .null]),
    ("updateId", typed [.string, .null]),
    ("rulesetVersion", nullableId),
    ("data", typed [.object])]

/-- The whole document. Its properties have no order; they are listed in the
order in which the program writes them. -/
def result : Schema :=
  record ["schemaVersion", "runId", "scenarioId", "disclaimer", "decisions", "usageReports",
      "n3Sink", "n6Sink", "state", "events", "observabilityDegraded"] [
    ("schemaVersion", enum ["1.0"]),
    ("runId", typed [.string]),
    ("scenarioId", typed [.string]),
    ("disclaimer", enum [
      "Simulation-only educational demo; not a conformant or production PFCP, GTP-U, or UPF implementation."]),
    ("decisions", arrayOf decision),
    ("events", arrayOf event),
    ("usageReports", arrayOf usageReport),
    ("n3Sink", arrayOf packet),
    ("n6Sink", arrayOf packet),
    ("state", state),
    ("observabilityDegraded", typed [.boolean]),
    ("droppedEventCount", integerFrom 0)]

end UpfPolicy.Contracts
