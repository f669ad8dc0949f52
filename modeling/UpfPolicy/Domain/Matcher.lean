/-
UpfPolicy.Domain.Matcher — `evaluateCandidate` (`src/domain/matcher.cpp`):
the seven criteria of one PDR against one packet, in the source's order.
-/
import UpfPolicy.Domain.Decision

namespace UpfPolicy

variable [InetText]

def interfaceText (i : Interface) : String := if i = .n3 then "N3" else "N6"

/-- The address a PDR's UE prefix is tested against. -/
def Packet.ueIp (packet : Packet) : IpAddress :=
  if packet.ingress = .n3 then packet.sourceIp else packet.destinationIp

def Packet.localPort (packet : Packet) : UInt16 :=
  if packet.ingress = .n3 then packet.sourcePort else packet.destinationPort

def Packet.remotePort (packet : Packet) : UInt16 :=
  if packet.ingress = .n3 then packet.destinationPort else packet.sourcePort

def evaluateCandidate (pdr : Pdr) (packet : Packet) : MatchCandidate :=
  let ingress := decide (pdr.sourceInterface = packet.ingress)
  let tunnel := pdr.teid.all (fun teid => packet.tunnel.any (fun t => t.teid == teid))
  let ue := packet.ueIp
  let inPrefix := pdr.uePrefix.contains ue
  let protocol := pdr.protocol.all (fun p => decide (p = packet.protocol))
  let localMatch := pdr.localPorts.all (fun r => r.contains packet.localPort)
  let remoteMatch := pdr.remotePorts.all (fun r => r.contains packet.remotePort)
  let qfi := pdr.qfi.all (fun qfi => packet.tunnel.any (fun t => t.qfi == qfi))
  { pdrId := pdr.id.value
    precedence := pdr.precedence
    matched := ingress && tunnel && inPrefix && protocol && localMatch && remoteMatch && qfi
    criteria := [
      ⟨"ingress", true, ingress, interfaceText packet.ingress, interfaceText pdr.sourceInterface⟩,
      ⟨"tunnel", pdr.teid.isSome, tunnel, "semantic", "configured"⟩,
      ⟨"prefix", true, inPrefix, ue.toString, "UE prefix"⟩,
      ⟨"protocol", pdr.protocol.isSome, protocol, "packet", "configured"⟩,
      ⟨"localPort", pdr.localPorts.isSome, localMatch, "packet", "range"⟩,
      ⟨"remotePort", pdr.remotePorts.isSome, remoteMatch, "packet", "range"⟩,
      ⟨"qfi", pdr.qfi.isSome, qfi, "packet", "configured"⟩] }

end UpfPolicy
