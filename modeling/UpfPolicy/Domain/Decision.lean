/-
UpfPolicy.Domain.Decision — what the engine reports
(`upf/domain/decision.hpp`, `src/domain/decision.cpp`).

The default field values are the source's constructors. Members that the
source leaves unset until it has a value for them (`transformedPacket`)
are options.
-/
import UpfPolicy.Domain.Rules

namespace UpfPolicy

inductive TerminalResult where
  | forwardedToN3
  | forwardedToN6
  | farDropped
  | noMatch
  | malformedPacket
  | gateClosed
  | rateLimited
  | packetQueueFull
  | shutdownDeadline
  | arithmeticError
  | capacityError
  deriving DecidableEq, Repr

def terminalResultName : TerminalResult → String
  | .forwardedToN3 => "FORWARDED_TO_N3"
  | .forwardedToN6 => "FORWARDED_TO_N6"
  | .farDropped => "FAR_DROPPED"
  | .noMatch => "NO_MATCH"
  | .malformedPacket => "MALFORMED_PACKET"
  | .gateClosed => "GATE_CLOSED"
  | .rateLimited => "RATE_LIMITED"
  | .packetQueueFull => "PACKET_QUEUE_FULL"
  | .shutdownDeadline => "SHUTDOWN_DEADLINE"
  | .arithmeticError => "ARITHMETIC_ERROR"
  | .capacityError => "CAPACITY_ERROR"

structure CriterionResult where
  name : String
  applicable : Bool
  matched : Bool
  actual : String
  expected : String
  deriving DecidableEq, Repr

structure MatchCandidate where
  pdrId : UInt32
  precedence : UInt32
  matched : Bool
  criteria : List CriterionResult
  deriving DecidableEq, Repr

structure QerDecision where
  applicable : Bool := false
  qerId : UInt32 := 0
  gate : GateStatus := .opened
  tokensBefore : UInt64 := 0
  refillBytes : UInt64 := 0
  packetChargeBytes : UInt64 := 0
  tokensAfter : UInt64 := 0
  allowed : Bool := false
  outcome : String := ""
  deriving DecidableEq, Repr

structure FarDecision where
  applicable : Bool := false
  farId : UInt32 := 0
  action : FarAction := .drop
  destination : Interface := .n6
  before : Option TunnelMetadata := none
  after : Option TunnelMetadata := none
  deriving DecidableEq, Repr

structure UrrDecision where
  applicable : Bool := false
  urrId : UInt32 := 0
  counted : Bool := false
  packetsBefore : UInt64 := 0
  packetsAfter : UInt64 := 0
  bytesBefore : UInt64 := 0
  bytesAfter : UInt64 := 0
  thresholdReached : Bool := false
  reportId : String := ""
  deriving DecidableEq, Repr

structure PacketDecision where
  runId : String
  scenarioId : String
  packetId : String
  sessionId : String
  arrivalTimeMicros : UInt64
  ingress : Interface
  rulesetVersion : UInt64 := 0
  updateId : String := ""
  candidates : List MatchCandidate := []
  selectedPdrId : UInt32 := 0
  qer : QerDecision := {}
  far : FarDecision := {}
  urr : UrrDecision := {}
  terminalResult : TerminalResult := .noMatch
  sinkPresent : Bool := false
  sink : Interface := .n6
  transformedPresent : Bool := false
  transformedPacket : Option Packet := none
  observabilityDegraded : Bool := false
  deriving DecidableEq, Repr

/-- The results on which a packet's planned effects are committed. -/
def TerminalResult.committed : TerminalResult → Bool
  | .forwardedToN3 | .forwardedToN6 | .farDropped => true
  | _ => false

end UpfPolicy
