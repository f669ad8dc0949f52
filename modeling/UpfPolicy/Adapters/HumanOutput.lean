/-
UpfPolicy.Adapters.HumanOutput — the result of a run for a reader
(`src/adapters/human_output.cpp`).

The stream is written from left to right; numbers are written in decimal.
-/
import UpfPolicy.Adapters.JsonOutput

namespace UpfPolicy

open Support

def decimal (n : UInt64) : String := toString n.toNat

def humanCriterion (criterion : CriterionResult) : String :=
  "    " ++ criterion.name ++ ": "
    ++ (if criterion.applicable then if criterion.matched then "MATCH" else "MISMATCH"
      else "NOT_APPLICABLE")
    ++ "\n"

def humanCandidate (candidate : MatchCandidate) : String :=
  "  PDR " ++ decimal candidate.pdrId.toUInt64 ++ ": "
    ++ (if candidate.matched then "MATCH" else "NO_MATCH") ++ "\n"
    ++ String.join (candidate.criteria.map humanCriterion)

def humanQer (d : QerDecision) : String :=
  "\nQER: " ++ d.outcome
    ++ (if d.applicable then
      " (tokens " ++ decimal d.tokensBefore ++ " + " ++ decimal d.refillBytes ++ " - "
        ++ decimal d.packetChargeBytes ++ " = " ++ decimal d.tokensAfter ++ ")"
      else "")

def humanFar (d : FarDecision) : String :=
  "\nFAR: "
    ++ (if !d.applicable then "NOT_APPLICABLE"
      else if d.action = .forward then "FORWARD" else "DROP")

def humanUrr (d : UrrDecision) : String :=
  "\nURR packets: " ++ decimal d.packetsBefore ++ " -> " ++ decimal d.packetsAfter
    ++ "\nURR bytes: " ++ decimal d.bytesBefore ++ " -> " ++ decimal d.bytesAfter
    ++ "\nURR report: " ++ (if d.reportId.isEmpty then "none" else d.reportId)

/-- The body of the loop over the decisions. -/
def humanDecision (d : PacketDecision) : String :=
  "Packet: " ++ d.packetId ++ "\nSession: " ++ d.sessionId
    ++ "\nIngress: " ++ interfaceName d.ingress
    ++ "\nSimulated time: " ++ decimal d.arrivalTimeMicros
    ++ "\nRuleset version: " ++ decimal d.rulesetVersion ++ "\nPDR candidates:\n"
    ++ String.join (d.candidates.map humanCandidate)
    ++ "PDR: "
    ++ (if d.selectedPdrId = 0 then "none" else decimal d.selectedPdrId.toUInt64)
    ++ humanQer d.qer ++ humanFar d.far ++ humanUrr d.urr
    ++ "\nSink: " ++ (if d.sinkPresent then interfaceName d.sink else "none")
    ++ "\nResult: " ++ terminalResultName d.terminalResult ++ "\n"

def renderHuman (result : RunResult) : String :=
  disclaimer ++ "\n"
    ++ "Run: " ++ result.runId ++ "\nScenario: " ++ result.scenarioId ++ "\n"
    ++ String.join (result.decisions.map humanDecision)

end UpfPolicy
