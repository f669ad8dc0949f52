/-
UpfPolicy.Adapters.JsonInput — rules and packets read from files
(`src/adapters/json_input.cpp`).

A file is what the JSON library makes of its bytes: it cannot be opened,
its text is malformed, or it holds a document (`FileContent`). Everything
after that is the program's: the members are read in the source's order,
through the accessor the source uses for each, so that every failure is
the source's.

The language leaves open in which order a call evaluates its arguments, and
lets it interleave them. Of two arguments the first access that does not go
on decides how the call ends, so an interleaving ends as one of the two
orders does, and which one may depend on the document: the order is the
parameter `ArgumentOrder`.

`fileRun` is `runFiles` with the locals it has at its last return.
-/
import UpfPolicy.Application.ScenarioRunner
import UpfPolicy.Domain.AddressText
import UpfPolicy.Support.Json

namespace UpfPolicy

open Support

/-! ## Files -/

inductive FileContent where
  | unreadable
  | malformed (what : String)
  | document (value : Json)

def readJson (files : String → FileContent) (path : String) : Outcome Json :=
  match files path with
  | .unreadable => .failed ("cannot read " ++ path)
  | .malformed what => .failed what
  | .document value => .value value

/-! ## Members -/

def protocol (value : Json) : Option TransportProtocol :=
  if value.equalsText "TCP" then some .tcp
  else if value.equalsText "UDP" then some .udp
  else if value.equalsText "ICMP" then some .icmp
  else if value.equalsText "ICMPV6" then some .icmpv6
  else none

/-- `value == "N3" ? N3 : N6`. -/
def interfaceOf (value : Json) : Interface := if value.equalsText "N3" then .n3 else .n6

/-- `if (item.contains(key))` around the reading of a member. -/
def whenPresent {α : Type} (item : Json) (key : String) (read : Outcome α) : Outcome (Option α) :=
  if item.contains key then some <$> read else pure none

/-- Whether the second of two arguments is evaluated first, for each of the
calls that read two members of an element. -/
class ArgumentOrder where
  localPorts : Json → Bool
  remotePorts : Json → Bool
  farTunnel : Json → Bool
  packetTunnel : Json → Bool

section Reading

variable [FloatCast]

def parsePortRange (secondFirst : Bool) (item : Json) (key : String) : Outcome PortRange := do
  let (first, last) ← Outcome.both secondFirst
    (do (← (← item.bracket key).bracket "first").getUInt16)
    (do (← (← item.bracket key).bracket "last").getUInt16)
  return { first, last }

def parseTunnel (secondFirst : Bool) (item : Json) : Outcome TunnelMetadata := do
  let (teid, qfi) ← Outcome.both secondFirst
    (do (← (← item.bracket "tunnel").bracket "teid").getUInt32)
    (do (← (← item.bracket "tunnel").bracket "qfi").getUInt8)
  return { teid, qfi }

/-! ## Rules -/

variable [InetPton] [ArgumentOrder]

def parsePdr (item : Json) : Outcome Pdr := do
  let id ← (← item.atKey "id").getUInt32
  let precedence ← (← item.atKey "precedence").getUInt32
  let sourceInterface := interfaceOf (← item.atKey "sourceInterface")
  let teid ← whenPresent item "teid" do (← item.atKey "teid").getUInt32
  let uePrefix ← Outcome.ofExcept (IpPrefix.parse (← (← item.atKey "uePrefix").getString))
  let transport ← whenPresent item "protocol" (protocol <$> item.atKey "protocol")
  let localPorts ← whenPresent item "localPorts"
    (parsePortRange (ArgumentOrder.localPorts item) item "localPorts")
  let remotePorts ← whenPresent item "remotePorts"
    (parsePortRange (ArgumentOrder.remotePorts item) item "remotePorts")
  let qfi ← whenPresent item "qfi" do (← item.bracket "qfi").getUInt8
  let farId ← (← item.atKey "farId").getUInt32
  let qerId ← whenPresent item "qerId" do (← item.bracket "qerId").getUInt32
  let urrId ← whenPresent item "urrId" do (← item.bracket "urrId").getUInt32
  return {
    id := ⟨id⟩
    precedence, sourceInterface, teid, uePrefix
    protocol := transport.join
    localPorts, remotePorts, qfi
    farId := ⟨farId⟩
    qerId := qerId.map (⟨·⟩)
    urrId := urrId.map (⟨·⟩) }

def tunnelOperationOf (op : String) : TunnelOperation :=
  if op == "ADD" then .add else if op == "REMOVE" then .remove else .tunnelNone

def parseFar (item : Json) : Outcome Far := do
  let id ← (← item.atKey "id").getUInt32
  let action := if (← item.atKey "action").equalsText "FORWARD" then FarAction.forward else .drop
  let destination ← whenPresent item "destinationInterface"
    (interfaceOf <$> item.bracket "destinationInterface")
  let operation ← whenPresent item "tunnelOperation" do
    return tunnelOperationOf (← (← item.bracket "tunnelOperation").getString)
  let tunnel ← whenPresent item "tunnel" (parseTunnel (ArgumentOrder.farTunnel item) item)
  return { id := ⟨id⟩, action, destination, operation := operation.getD .tunnelNone, tunnel }

def parseQer (item : Json) : Outcome Qer := do
  let id ← (← item.atKey "id").getUInt32
  let gate := if (← item.atKey "gate").equalsText "OPEN" then GateStatus.opened else .closed
  let rateBitsPerSecond ← (← item.atKey "rateBitsPerSecond").getUInt64
  let burstBytes ← (← item.atKey "burstBytes").getUInt64
  let generation ← (← item.atKey "generation").getUInt32
  return { id := ⟨id⟩, gate, rateBitsPerSecond, burstBytes, generation }

def parseUrr (item : Json) : Outcome Urr := do
  let id ← (← item.atKey "id").getUInt32
  let volumeThresholdBytes ← (← item.atKey "volumeThresholdBytes").getUInt64
  let generation ← (← item.atKey "generation").getUInt32
  return { id := ⟨id⟩, volumeThresholdBytes, generation }

/-- The body of the `try` block. -/
def readRules (root : Json) : Outcome RuleSet := do
  let sessionId ← (← root.atKey "sessionId").getString
  let version ← (← root.atKey "rulesetVersion").getUInt64
  let pdrs ← Outcome.each parsePdr (← (← root.atKey "pdrs").elements)
  let fars ← Outcome.each parseFar (← (← root.atKey "fars").elements)
  let qers ← Outcome.each parseQer (← (← root.atKey "qers").elements)
  let urrs ← Outcome.each parseUrr (← (← root.atKey "urrs").elements)
  return { sessionId, version, pdrs, fars, qers, urrs }

def parseRules (root : Json) : Outcome RuleSet := (readRules root).rescue

/-! ## Packets -/

def parsePacket (item : Json) : Outcome Packet := do
  let packetId ← (← item.atKey "packetId").getString
  let sessionId ← (← item.atKey "sessionId").getString
  let ingress := interfaceOf (← item.atKey "ingress")
  let tunnel ← whenPresent item "tunnel" (parseTunnel (ArgumentOrder.packetTunnel item) item)
  let source := IpAddress.parse (← (← item.atKey "sourceIp").getString)
  let destination := IpAddress.parse (← (← item.atKey "destinationIp").getString)
  let (.ok sourceIp, .ok destinationIp) := (source, destination) | .failed "invalid packet address"
  let some protocol := protocol (← item.atKey "protocol") | .failed "invalid protocol"
  let sourcePort ← (← item.atKey "sourcePort").getUInt16
  let destinationPort ← (← item.atKey "destinationPort").getUInt16
  let payloadBytes ← (← item.atKey "payloadBytes").getUInt32
  let arrivalTimeMicros ← (← item.atKey "arrivalTimeMicros").getUInt64
  return {
    packetId, sessionId, ingress, tunnel, sourceIp, destinationIp, protocol, sourcePort,
    destinationPort, payloadBytes, arrivalTimeMicros }

/-- The loop reads `root["packets"]` again on every turn; that member is
there, since `root.at("packets")` was evaluated before it. -/
def readPackets (root : Json) : Outcome (List Packet) := do
  Outcome.each parsePacket (← (← root.atKey "packets").elements)

def parsePackets (root : Json) : Outcome (List Packet) := (readPackets root).rescue

/-! ## Runs -/

/-- The locals of `runFiles` at its last return. -/
structure FileRun where
  rules : RuleSet
  packets : List Packet
  /-- The pipeline before and after the loop over the packets. -/
  installed : PacketPipeline
  pipeline : PacketPipeline
  result : RunResult

variable [InetText]

/-- Both files are read, and both documents parsed, before the first result
is tested. -/
def fileRun (files : String → FileContent) (rulesPath packetsPath : String) : Outcome FileRun := do
  let rulesJson ← (readJson files rulesPath).result
  let packetsJson ← (readJson files packetsPath).result
  let rulesJson ← Outcome.ofExcept rulesJson
  let packetsJson ← Outcome.ofExcept packetsJson
  let rules ← (parseRules rulesJson).result
  let packets ← (parsePackets packetsJson).result
  let rules ← Outcome.ofExcept rules
  let packets ← Outcome.ofExcept packets
  let installed := (PacketPipeline.new {}).install rules
  Outcome.ofExcept installed.1
  let runId ← packetsJson.valueOr "runId" "file-run"
  let scenarioId ← packetsJson.valueOr "scenarioId" "local-files"
  match processAll installed.2 runId scenarioId packets with
  | none => .undefined
  | some (decisions, final) =>
    return {
      rules, packets
      installed := installed.2
      pipeline := final
      result := {
        runId, scenarioId, decisions
        n3Sink := final.n3Sink
        n6Sink := final.n6Sink
        intendedVersion := rules.version
        appliedVersion := rules.version
        activeVersion := rules.version
        convergence := .converged } }

def runFiles (files : String → FileContent) (rulesPath packetsPath : String) : Outcome RunResult :=
  FileRun.result <$> fileRun files rulesPath packetsPath

end Reading

end UpfPolicy
