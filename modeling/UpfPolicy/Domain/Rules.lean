/-
UpfPolicy.Domain.Rules — packets and rulesets (`upf/domain/packet.hpp`,
`upf/domain/rules.hpp`) and their validation (`src/domain/validation.cpp`).

A lookup that returns a null pointer in the source returns `none` here.
`validateRuleSet` keeps the source's order of checks and its error texts;
the two nested index loops over the PDRs are one recursion over the list,
the inner loop being the pass over the PDRs still to come.
-/
import UpfPolicy.Domain.Address

namespace UpfPolicy

/-! ## Packets -/

structure TunnelMetadata where
  teid : UInt32 := 0
  qfi : UInt8 := 0
  deriving DecidableEq, Repr

def TunnelMetadata.valid (t : TunnelMetadata) : Bool :=
  t.teid != 0 && decide (t.qfi ≥ 1) && decide (t.qfi ≤ 63)

structure Packet where
  packetId : String
  sessionId : String
  ingress : Interface
  tunnel : Option TunnelMetadata
  sourceIp : IpAddress
  destinationIp : IpAddress
  protocol : TransportProtocol
  sourcePort : UInt16
  destinationPort : UInt16
  payloadBytes : UInt32
  arrivalTimeMicros : UInt64
  deriving DecidableEq, Repr

/-! ## Rules -/

structure Pdr where
  id : PdrId := {}
  precedence : UInt32 := 0
  sourceInterface : Interface := .n3
  teid : Option UInt32 := none
  uePrefix : IpPrefix := default
  protocol : Option TransportProtocol := none
  localPorts : Option PortRange := none
  remotePorts : Option PortRange := none
  qfi : Option UInt8 := none
  farId : FarId := {}
  qerId : Option QerId := none
  urrId : Option UrrId := none
  generation : UInt32 := 1

structure Far where
  id : FarId := {}
  action : FarAction := .drop
  destination : Option Interface := none
  operation : TunnelOperation := .tunnelNone
  tunnel : Option TunnelMetadata := none
  deriving DecidableEq, Repr

structure Qer where
  id : QerId := {}
  gate : GateStatus := .opened
  rateBitsPerSecond : UInt64 := 0
  burstBytes : UInt64 := 0
  qfi : Option UInt8 := none
  generation : UInt32 := 1
  deriving DecidableEq, Repr

structure Urr where
  id : UrrId := {}
  volumeThresholdBytes : UInt64 := 1
  generation : UInt32 := 1
  deriving DecidableEq, Repr

structure RuleSet where
  sessionId : String := ""
  version : UInt64 := 1
  pdrs : List Pdr := []
  fars : List Far := []
  qers : List Qer := []
  urrs : List Urr := []

def findFar (rules : RuleSet) (id : FarId) : Option Far :=
  rules.fars.find? (fun far => far.id == id)

def findQer (rules : RuleSet) (id : QerId) : Option Qer :=
  rules.qers.find? (fun qer => qer.id == id)

def findUrr (rules : RuleSet) (id : UrrId) : Option Urr :=
  rules.urrs.find? (fun urr => urr.id == id)

/-! ## Validation -/

/-- The loop of `uniqueIds`; `ids` is the set of the values seen so far. -/
def uniqueIdsFrom (ids : List UInt32) : List RuleId → Bool
  | [] => true
  | id :: rest =>
      if !id.valid || ids.contains id.value then false
      else uniqueIdsFrom (id.value :: ids) rest

def uniqueIds (values : List RuleId) : Bool := uniqueIdsFrom [] values

def rangesOverlap : Option PortRange → Option PortRange → Bool
  | some a, some b => decide (a.first ≤ b.last) && decide (b.first ≤ a.last)
  | _, _ => true

def optionalValuesOverlap {α : Type} [DecidableEq α] : Option α → Option α → Bool
  | some a, some b => decide (a = b)
  | _, _ => true

def matchSpacesOverlap (a b : Pdr) : Bool :=
  decide (a.sourceInterface = b.sourceInterface) &&
    optionalValuesOverlap a.teid b.teid &&
    (a.uePrefix.contains b.uePrefix.network || b.uePrefix.contains a.uePrefix.network) &&
    optionalValuesOverlap a.protocol b.protocol && rangesOverlap a.localPorts b.localPorts &&
    rangesOverlap a.remotePorts b.remotePorts && optionalValuesOverlap a.qfi b.qfi

/-- The checks `validateRuleSet` makes on one PDR before the inner loop. -/
def validatePdr (rules : RuleSet) (pdr : Pdr) : Except String Unit :=
  match findFar rules pdr.farId with
  | none => .error "missing FAR"
  | some far =>
    if pdr.qerId.any (fun id => (findQer rules id).isNone) then .error "missing QER"
    else if pdr.urrId.any (fun id => (findUrr rules id).isNone) then .error "missing URR"
    else if pdr.sourceInterface = .n3 ∧ pdr.teid.isNone then .error "N3 PDR requires TEID"
    else if pdr.sourceInterface = .n6 ∧ pdr.teid.isSome then .error "N6 PDR forbids TEID"
    else if pdr.localPorts.any (fun r => !r.valid) then .error "invalid local ports"
    else if pdr.remotePorts.any (fun r => !r.valid) then .error "invalid remote ports"
    else if far.action = .forward then
      match far.destination with
      | none => .error "forward destination missing"
      | some destination =>
        if pdr.sourceInterface = .n3 ∧ (destination ≠ .n6 ∨ far.operation ≠ .remove) then
          .error "invalid uplink FAR"
        else if pdr.sourceInterface = .n6 ∧ (destination ≠ .n3 ∨ far.operation ≠ .add ∨
            far.tunnel.all (fun t => !t.valid)) then
          .error "invalid downlink FAR"
        else .ok ()
    else if far.destination.isSome ∨ far.operation ≠ .tunnelNone then
      .error "drop FAR has forwarding parameters"
    else .ok ()

/-- The loop over the PDRs, with the inner loop over the later ones. -/
def validatePdrs (rules : RuleSet) : List Pdr → Except String Unit
  | [] => .ok ()
  | pdr :: rest =>
    match validatePdr rules pdr with
    | .error e => .error e
    | .ok () =>
      if rest.any (fun other => pdr.precedence == other.precedence && matchSpacesOverlap pdr other) then
        .error "equal-precedence PDR match spaces overlap"
      else validatePdrs rules rest

def validateRuleSet (rules : RuleSet) (limits : CapacityLimits) : Except String Unit :=
  if rules.sessionId.isEmpty ∨ rules.version = 0 then .error "invalid session/version"
  else if rules.pdrs.length > limits.rulesPerType.toNat ∨
      rules.fars.length > limits.rulesPerType.toNat ∨
      rules.qers.length > limits.rulesPerType.toNat ∨
      rules.urrs.length > limits.rulesPerType.toNat then
    .error "rule capacity exceeded"
  else if !uniqueIds (rules.pdrs.map (·.id)) ∨ !uniqueIds (rules.fars.map (·.id)) ∨
      !uniqueIds (rules.qers.map (·.id)) ∨ !uniqueIds (rules.urrs.map (·.id)) then
    .error "invalid or duplicate rule ID"
  else validatePdrs rules rules.pdrs

end UpfPolicy
