/-
UpfPolicy.Adapters.DecodingTheorems — what the readers of the two input
documents make of them.

`pdrSites` … `rulesSites` grade the places of a document in the order in
which the reader of that part visits them, and `PdrFaithful` …
`RulesFaithful` say when a value states what the document does: every
number is the document's number, every enumerated field has the name the
document has, and an optional field is absent only where its member is.
The theorems `…_reads` connect the places with the fields that are read.

A number is converted without a range test, so `4294967297` is read as the
ID 1; a name that is not one of the two of a field is read as the second;
a protocol that is not one of the four is read as no protocol at all; a
port range or a tunnel without one of its members is accessed without a
test; and the generation of a PDR and the QFI of a QER are not read.
`rules_decoded_iff` says that these are all: the rules are decoded
faithfully, or rejected, exactly when the reader stops at a place that it
tests, or every place is exact and nothing is left unread.
-/
import UpfPolicy.Adapters.JsonInput
import UpfPolicy.Adapters.JsonOutput
import UpfPolicy.Adapters.UsageReportTheorems
import UpfPolicy.Support.Reads

namespace UpfPolicy

open Support

/-! ## Members -/

/-- The places of a member that is read where it is present. -/
def whenSites (item : Json) (key : String) (gs : List Grade) : List Grade :=
  if item.contains key then gs else []

theorem reads_whenPresent {α : Type} {item : Json} {key : String} {read : Outcome α}
    {gs : List Grade} {S : Json → α → Prop} (h : Reads read gs (item.States key S)) :
    Reads (whenPresent item key read) (whenSites item key gs) (item.StatesOptional key S) := by
  unfold whenPresent whenSites Json.contains
  cases hmember : item.member? key with
  | none =>
    refine (Reads.pure none).congr (fun o ho => ?_) fun o _ => ⟨none, rfl⟩
    subst ho
    exact hmember
  | some v =>
    refine (h.map some).congr ?_ ?_
    · rintro _ ⟨a, ha, rfl⟩
      exact ha
    · rintro (_ | a) ho
      · cases hmember.symm.trans ho
      · exact ⟨_, a, ho, rfl⟩

/-- The member under a key states an optional value that is there. -/
theorem statesOptional_join {α : Type} {item : Json} {key : String} {S : Json → α → Prop}
    {o : Option (Option α)}
    (h : item.StatesOptional key (fun v o => ∃ a, o = some a ∧ S v a) o) :
    item.StatesOptional key S o.join := by
  cases o with
  | none => exact h
  | some o =>
    obtain ⟨v, hv, a, rfl, ha⟩ := h
    exact ⟨v, hv, ha⟩

theorem statesOptional_some {α : Type} {item : Json} {key : String} {S : Json → α → Prop}
    {o : Option α} (h : item.StatesOptional key S o) :
    item.StatesOptional key (fun v o => ∃ a, o = some a ∧ S v a) (o.map some) := by
  cases o with
  | none => exact h
  | some a =>
    obtain ⟨v, hv, ha⟩ := h
    exact ⟨v, hv, a, rfl, ha⟩

def interfaceSites (v : Json) : List Grade := [v.nameGrade [interfaceName .n3, interfaceName .n6]]

/-- A name of an enumeration. -/
def IsName {α : Type} (name : α → String) (v : Json) (a : α) : Prop := v = .string (name a)

theorem interfaceOf_states {v : Json} :
    v.nameGrade [interfaceName .n3, interfaceName .n6] = .exact ↔
      IsName interfaceName v (interfaceOf v) :=
  Json.choice_states (by decide) v

theorem reads_interfaceOf (v : Json) :
    Reads (pure (interfaceOf v)) (interfaceSites v) (IsName interfaceName v) := by
  refine ((Reads.pure (interfaceOf v)).note (Json.nameGrade_cases _ v)).congr ?_ ?_
  · rintro _ ⟨hexact, rfl⟩
    exact interfaceOf_states.mp hexact
  · intro i hi
    exact ⟨_, Json.nameGrade_eq_exact.mpr ⟨interfaceName i, by cases i <;> simp, hi⟩, rfl⟩

section Reading

variable [FloatCast]

/-- Two numbers under one member, each read through unchecked accesses. -/
def pairSites (secondFirst : Bool) (item : Json) (key a : String) (i : Nat) (b : String) (j : Nat) :
    List Grade :=
  Grade.both secondFirst (item.bracketSites key (·.bracketSites a (·.uintSites i)))
    (item.bracketSites key (·.bracketSites b (·.uintSites j)))

structure PortsFaithful (v : Json) (ports : PortRange) : Prop where
  first : v.States "first" Json.IsNumber ports.first.toNat
  last : v.States "last" Json.IsNumber ports.last.toNat

structure TunnelFaithful (v : Json) (tunnel : TunnelMetadata) : Prop where
  teid : v.States "teid" Json.IsNumber tunnel.teid.toNat
  qfi : v.States "qfi" Json.IsNumber tunnel.qfi.toNat

omit [FloatCast] in
/-- Reading such a pair in either order, whatever is made of it. -/
theorem reads_pair {item : Json} {key a b : String} {i j : Nat} {T U A : Type}
    {get : Json → Outcome T} {toNat : T → Nat} {get' : Json → Outcome U} {toNat' : U → Nat}
    (make : T → U → A) {F : Json → A → Prop} (secondFirst : Bool)
    (ha : ∀ v, Reads (get v) (v.uintSites i) fun n => v.IsNumber (toNat n))
    (hb : ∀ v, Reads (get' v) (v.uintSites j) fun m => v.IsNumber (toNat' m))
    (hto : ∀ v n m, v.States a Json.IsNumber (toNat n) → v.States b Json.IsNumber (toNat' m) →
      F v (make n m))
    (hfrom : ∀ v p, F v p → ∃ n m, v.States a Json.IsNumber (toNat n) ∧
      v.States b Json.IsNumber (toNat' m)) :
    Reads (Outcome.both secondFirst (item.bracket key >>= fun v => v.bracket a >>= get)
        (item.bracket key >>= fun v => v.bracket b >>= get') >>= fun p => pure (make p.1 p.2))
      (pairSites secondFirst item key a i b j) (item.States key F) := by
  have hfirst : Reads (item.bracket key >>= fun v => v.bracket a >>= get) _ _ :=
    Reads.bracket_last fun v => Reads.bracket_last ha
  have hsecond : Reads (item.bracket key >>= fun v => v.bracket b >>= get') _ _ :=
    Reads.bracket_last fun v => Reads.bracket_last hb
  refine ((hfirst.both secondFirst hsecond).map fun p => make p.1 p.2).congr ?_ ?_
  · rintro _ ⟨⟨n, m⟩, ⟨⟨v, hv, w, hw, hn⟩, v', hv', w', hw', hm⟩, rfl⟩
    obtain rfl := Option.some.inj (hv.symm.trans hv')
    exact ⟨v, hv, hto v n m ⟨w, hw, hn⟩ ⟨w', hw', hm⟩⟩
  · rintro p ⟨v, hv, hp⟩
    obtain ⟨n, m, hn, hm⟩ := hfrom v p hp
    exact ⟨_, (n, m), ⟨⟨v, hv, hn⟩, v, hv, hm⟩, rfl⟩

theorem parsePortRange_reads (secondFirst : Bool) (item : Json) (key : String) :
    Reads (parsePortRange secondFirst item key) (pairSites secondFirst item key "first" 16 "last" 16)
      (item.States key PortsFaithful) := by
  refine reads_pair PortRange.mk secondFirst Reads.getUInt16 Reads.getUInt16 ?_ ?_
  · intro v first last hfirst hlast
    exact ⟨hfirst, hlast⟩
  · intro v ports h
    exact ⟨ports.first, ports.last, h.first, h.last⟩

theorem parseTunnel_reads (secondFirst : Bool) (item : Json) :
    Reads (parseTunnel secondFirst item) (pairSites secondFirst item "tunnel" "teid" 32 "qfi" 8)
      (item.States "tunnel" TunnelFaithful) := by
  refine reads_pair TunnelMetadata.mk secondFirst Reads.getUInt32 Reads.getUInt8 ?_ ?_
  · intro v teid qfi hteid hqfi
    exact ⟨hteid, hqfi⟩
  · intro v tunnel h
    exact ⟨tunnel.teid, tunnel.qfi, h.teid, h.qfi⟩

/-! ## PDRs -/

def protocolSites (v : Json) : List Grade :=
  [v.nameGrade (([.tcp, .udp, .icmp, .icmpv6] : List TransportProtocol).map protocolName)]

omit [FloatCast] in
theorem protocol_eq_some {v : Json} {p : TransportProtocol} :
    protocol v = some p ↔ IsName protocolName v p := by
  constructor
  · intro h
    unfold protocol at h
    split_ifs at h with htcp hudp hicmp hicmpv6
    · cases h
      exact Json.equalsText_iff.mp htcp
    · cases h
      exact Json.equalsText_iff.mp hudp
    · cases h
      exact Json.equalsText_iff.mp hicmp
    · cases h
      exact Json.equalsText_iff.mp hicmpv6
  · rintro rfl
    cases p <;> decide

omit [FloatCast] in
theorem protocolGrade_eq_exact {v : Json} :
    protocolSites v = [.exact] ↔ ∃ p, protocol v = some p := by
  simp only [protocolSites, List.cons.injEq, and_true, Json.nameGrade_eq_exact, protocol_eq_some]
  constructor
  · rintro ⟨name, hmem, rfl⟩
    obtain ⟨p, -, rfl⟩ := List.mem_map.mp hmem
    exact ⟨p, rfl⟩
  · rintro ⟨p, hp⟩
    exact ⟨protocolName p, List.mem_map.mpr ⟨p, by cases p <;> simp, rfl⟩, hp⟩

omit [FloatCast] in
/-- What is not the name of a protocol is read as no protocol. -/
theorem reads_protocol (v : Json) :
    Reads (pure (protocol v)) (protocolSites v) fun o => ∃ p, o = some p ∧ IsName protocolName v p := by
  refine ((Reads.pure (protocol v)).note (Json.nameGrade_cases _ v)).congr ?_ ?_
  · rintro _ ⟨hexact, rfl⟩
    obtain ⟨p, hp⟩ := protocolGrade_eq_exact.mp (congrArg (fun g => [g]) hexact)
    exact ⟨p, hp, protocol_eq_some.mp hp⟩
  · rintro o ⟨p, -, hv⟩
    exact ⟨_, (List.cons.inj (protocolGrade_eq_exact.mpr ⟨p, protocol_eq_some.mpr hv⟩)).1, rfl⟩

/-- A name that is tested where others of its kind are passed. -/
def strict : Grade → Grade
  | .lenient => .refused
  | g => g

omit [FloatCast] in
/-- A protocol that is none of the four is refused where a packet names it. -/
theorem reads_protocol_strict {α : Type} {hs : List Grade} {f : TransportProtocol → Outcome α}
    {G : TransportProtocol → α → Prop} (h : ∀ p, Reads (f p) hs (G p)) (v : Json) :
    Reads (match protocol v with
        | some p => f p
        | _ => .failed "invalid protocol")
      ((protocolSites v).map strict ++ hs) fun c => ∃ p, IsName protocolName v p ∧ G p c := by
  cases hp : protocol v with
  | some p =>
    rw [protocolGrade_eq_exact.mpr ⟨p, hp⟩]
    refine (Reads.note (.inl rfl) (h p)).congr
      (fun c hc => ⟨p, protocol_eq_some.mp hp, hc.2⟩) ?_
    rintro c ⟨q, hq, hc⟩
    cases hp.symm.trans (protocol_eq_some.mpr hq)
    exact ⟨c, rfl, hc⟩
  | none =>
    have hlenient : protocolSites v = [.lenient] := by
      refine congrArg (fun g => [g]) ((Json.nameGrade_cases _ v).resolve_left fun hexact => ?_)
      obtain ⟨p, hsome⟩ := protocolGrade_eq_exact.mp (congrArg (fun g => [g]) hexact)
      cases hp.symm.trans hsome
    rw [hlenient]
    refine Reads.halt (.inl ⟨rfl, rfl⟩) ?_
    rintro c ⟨q, hq, -⟩
    cases hp.symm.trans (protocol_eq_some.mpr hq)

variable [ArgumentOrder]

section Prefixes

variable [InetPton]

def pdrSites (item : Json) : List Grade :=
  [item.atSites "id" (·.uintSites 32),
    item.atSites "precedence" (·.uintSites 32),
    item.atSites "sourceInterface" interfaceSites,
    whenSites item "teid" (item.atSites "teid" (·.uintSites 32)),
    item.atSites "uePrefix" (·.parsedSites IpPrefix.parse),
    whenSites item "protocol" (item.atSites "protocol" protocolSites),
    whenSites item "localPorts"
      (pairSites (ArgumentOrder.localPorts item) item "localPorts" "first" 16 "last" 16),
    whenSites item "remotePorts"
      (pairSites (ArgumentOrder.remotePorts item) item "remotePorts" "first" 16 "last" 16),
    whenSites item "qfi" (item.bracketSites "qfi" (·.uintSites 8)),
    item.atSites "farId" (·.uintSites 32),
    whenSites item "qerId" (item.bracketSites "qerId" (·.uintSites 32)),
    whenSites item "urrId" (item.bracketSites "urrId" (·.uintSites 32))].flatten

/-- The fields of a PDR that are read state what an element of `pdrs` does. -/
structure PdrRead (item : Json) (pdr : Pdr) : Prop where
  id : item.States "id" Json.IsNumber pdr.id.value.toNat
  precedence : item.States "precedence" Json.IsNumber pdr.precedence.toNat
  sourceInterface : item.States "sourceInterface" (IsName interfaceName) pdr.sourceInterface
  teid : item.StatesOptional "teid" (fun v teid => v.IsNumber teid.toNat) pdr.teid
  uePrefix : item.States "uePrefix" (Json.IsParsed IpPrefix.parse) pdr.uePrefix
  protocol : item.StatesOptional "protocol" (IsName protocolName) pdr.protocol
  localPorts : item.StatesOptional "localPorts" PortsFaithful pdr.localPorts
  remotePorts : item.StatesOptional "remotePorts" PortsFaithful pdr.remotePorts
  qfi : item.StatesOptional "qfi" (fun v qfi => v.IsNumber qfi.toNat) pdr.qfi
  farId : item.States "farId" Json.IsNumber pdr.farId.value.toNat
  qerId : item.StatesOptional "qerId" (fun v id => v.IsNumber id.value.toNat) pdr.qerId
  urrId : item.StatesOptional "urrId" (fun v id => v.IsNumber id.value.toNat) pdr.urrId

/-- A PDR states what an element of `pdrs` does. -/
structure PdrFaithful (item : Json) (pdr : Pdr) : Prop extends PdrRead item pdr where
  generation : item.StatesOr "generation" (fun v generation => v.IsNumber generation.toNat) 1
    pdr.generation

/-- The generation is not read: it stays the 1 of the constructor. -/
structure PdrDecoded (item : Json) (pdr : Pdr) : Prop extends PdrRead item pdr where
  generation : pdr.generation = 1

theorem parsePdr_reads (item : Json) :
    Reads (parsePdr item) (pdrSites item) (PdrDecoded item) := by
  have h : Reads (parsePdr item) (pdrSites item) _ :=
    Reads.atKey fun v => (Reads.getUInt32 v).bind fun id =>
    Reads.atKey fun v => (Reads.getUInt32 v).bind fun precedence =>
    Reads.atKey fun v => Reads.note (Json.nameGrade_cases _ v) <|
    (reads_whenPresent (Reads.atKey_last Reads.getUInt32)).bind fun teid =>
    Reads.atKey fun v => Reads.parsedOrFailed v fun uePrefix =>
    (reads_whenPresent (Reads.atKey_last reads_protocol)).bind fun transport =>
    (reads_whenPresent (parsePortRange_reads _ item "localPorts")).bind fun localPorts =>
    (reads_whenPresent (parsePortRange_reads _ item "remotePorts")).bind fun remotePorts =>
    (reads_whenPresent (Reads.bracket_last Reads.getUInt8)).bind fun qfi =>
    Reads.atKey fun v => (Reads.getUInt32 v).bind fun farId =>
    (reads_whenPresent (Reads.bracket_last Reads.getUInt32)).bind fun qerId =>
    (reads_whenPresent (Reads.bracket_last Reads.getUInt32)).bind fun urrId =>
    Reads.pure _
  refine h.congr ?_ ?_
  · rintro _ ⟨v, hv, id, hid, w, hw, precedence, hprecedence, u, hu, hinterface, teid, hteid, t, ht,
      uePrefix, hnetwork, transport, htransport, localPorts, hlocal, remotePorts, hremote, qfi, hqfi,
      r, hr, farId, hfar, qerId, hqer, urrId, hurr, rfl⟩
    exact {
      id := ⟨v, hv, hid⟩
      precedence := ⟨w, hw, hprecedence⟩
      sourceInterface := ⟨u, hu, interfaceOf_states.mp hinterface⟩
      teid := hteid
      uePrefix := ⟨t, ht, hnetwork⟩
      protocol := statesOptional_join htransport
      localPorts := hlocal
      remotePorts := hremote
      qfi := hqfi
      farId := ⟨r, hr, hfar⟩
      qerId := Json.statesOptional_map.mpr hqer
      urrId := Json.statesOptional_map.mpr hurr
      generation := rfl }
  · intro pdr h
    obtain ⟨v, hv, hid⟩ := h.id
    obtain ⟨w, hw, hprecedence⟩ := h.precedence
    obtain ⟨u, hu, hinterface⟩ := h.sourceInterface
    obtain ⟨t, ht, hnetwork⟩ := h.uePrefix
    obtain ⟨r, hr, hfar⟩ := h.farId
    exact ⟨_, v, hv, pdr.id.value, hid, w, hw, pdr.precedence, hprecedence, u, hu,
      (reads_interfaceOf u).only _ hinterface _ List.mem_cons_self, pdr.teid, h.teid, t, ht,
      pdr.uePrefix, hnetwork, pdr.protocol.map some, statesOptional_some h.protocol,
      pdr.localPorts, h.localPorts, pdr.remotePorts, h.remotePorts, pdr.qfi, h.qfi, r, hr,
      pdr.farId.value, hfar, pdr.qerId.map (·.value), Json.statesOptional_map.mpr h.qerId,
      pdr.urrId.map (·.value), Json.statesOptional_map.mpr h.urrId, rfl⟩

end Prefixes

/-! ## FARs -/

def actionName : FarAction → String
  | .forward => "FORWARD"
  | .drop => "DROP"

/-- A FAR without an operation has no member for it. -/
def operationName : TunnelOperation → Option String
  | .tunnelNone => none
  | .add => some "ADD"
  | .remove => some "REMOVE"

/-- An operation has to be a text, and any text will do. -/
def operationSites : Json → List Grade
  | .string s => [Json.nameGrade ["ADD", "REMOVE"] (.string s)]
  | _ => [.refused]

def IsOperation (v : Json) (name : String) : Prop := v = .string name

omit [FloatCast] [ArgumentOrder] in
theorem reads_operation (v : Json) :
    Reads (v.getString >>= fun s => pure (tunnelOperationOf s)) (operationSites v)
      fun op => ∃ name, operationName op = some name ∧ IsOperation v name := by
  cases v with
  | string s =>
    refine ((Reads.pure (tunnelOperationOf s)).note (Json.nameGrade_cases _ _)).congr ?_ ?_
    · rintro _ ⟨hexact, rfl⟩
      obtain ⟨name, hmem, heq⟩ := Json.nameGrade_eq_exact.mp hexact
      obtain rfl := Json.string.inj heq
      simp only [List.mem_cons, List.not_mem_nil, or_false] at hmem
      obtain rfl | rfl := hmem
      · exact ⟨"ADD", rfl, rfl⟩
      · exact ⟨"REMOVE", rfl, rfl⟩
    · rintro op ⟨name, hname, hs⟩
      refine ⟨_, Json.nameGrade_eq_exact.mpr ⟨name, ?_, hs⟩, rfl⟩
      cases op <;> cases hname <;> simp
  | null | boolean | integer | unsigned | float | array | object =>
    refine Reads.halt (.inl ⟨rfl, rfl⟩) ?_
    rintro op ⟨name, -, hs⟩
    cases hs

def farSites (item : Json) : List Grade :=
  [item.atSites "id" (·.uintSites 32),
    item.atSites "action" fun v => [v.nameGrade [actionName .forward, actionName .drop]],
    whenSites item "destinationInterface" (item.bracketSites "destinationInterface" interfaceSites),
    whenSites item "tunnelOperation" (item.bracketSites "tunnelOperation" operationSites),
    whenSites item "tunnel"
      (pairSites (ArgumentOrder.farTunnel item) item "tunnel" "teid" 32 "qfi" 8)].flatten

structure FarFaithful (item : Json) (far : Far) : Prop where
  id : item.States "id" Json.IsNumber far.id.value.toNat
  action : item.States "action" (IsName actionName) far.action
  destination :
    item.StatesOptional "destinationInterface" (IsName interfaceName) far.destination
  operation : item.StatesOptional "tunnelOperation" IsOperation (operationName far.operation)
  tunnel : item.StatesOptional "tunnel" TunnelFaithful far.tunnel

theorem parseFar_reads (item : Json) :
    Reads (parseFar item) (farSites item) (FarFaithful item) := by
  have h : Reads (parseFar item) (farSites item) _ :=
    Reads.atKey fun v => (Reads.getUInt32 v).bind fun id =>
    Reads.atKey fun v => Reads.note (Json.nameGrade_cases _ v) <|
    (reads_whenPresent (Reads.bracket_last reads_interfaceOf)).bind fun destination =>
    (reads_whenPresent (Reads.bracket_last reads_operation)).bind fun operation =>
    (reads_whenPresent (parseTunnel_reads _ item)).bind fun tunnel =>
    Reads.pure _
  refine h.congr ?_ ?_
  · rintro _ ⟨v, hv, id, hid, w, hw, haction, destination, hdestination, operation, hoperation,
      tunnel, htunnel, rfl⟩
    exact {
      id := ⟨v, hv, hid⟩
      action := ⟨w, hw, (Json.choice_states (by decide) w).mp haction⟩
      destination := hdestination
      operation := by
        cases operation with
        | none => exact hoperation
        | some op =>
          obtain ⟨u, hu, name, hname, hs⟩ := hoperation
          dsimp only [Option.getD_some]
          rw [hname]
          exact ⟨u, hu, hs⟩
      tunnel := htunnel }
  · intro far h
    obtain ⟨v, hv, hid⟩ := h.id
    obtain ⟨w, hw, haction⟩ := h.action
    refine ⟨_, v, hv, far.id.value, hid, w, hw, ?_, far.destination, h.destination,
      if far.operation = .tunnelNone then none else some far.operation, ?_, far.tunnel, h.tunnel, rfl⟩
    · exact Json.nameGrade_eq_exact.mpr ⟨_, by cases far.action <;> simp, haction⟩
    · have hoperation := h.operation
      cases hop : far.operation with
      | tunnelNone => rwa [hop] at hoperation
      | add | remove =>
        rw [hop] at hoperation
        obtain ⟨u, hu, hs⟩ := hoperation
        exact ⟨u, hu, _, rfl, hs⟩

/-! ## QERs and URRs -/

def gateName : GateStatus → String
  | .opened => "OPEN"
  | .closed => "CLOSED"

def qerSites (item : Json) : List Grade :=
  [item.atSites "id" (·.uintSites 32),
    item.atSites "gate" fun v => [v.nameGrade [gateName .opened, gateName .closed]],
    item.atSites "rateBitsPerSecond" (·.uintSites 64),
    item.atSites "burstBytes" (·.uintSites 64),
    item.atSites "generation" (·.uintSites 32)].flatten

/-- The fields of a QER that are read state what an element of `qers` does. -/
structure QerRead (item : Json) (qer : Qer) : Prop where
  id : item.States "id" Json.IsNumber qer.id.value.toNat
  gate : item.States "gate" (IsName gateName) qer.gate
  rateBitsPerSecond : item.States "rateBitsPerSecond" Json.IsNumber qer.rateBitsPerSecond.toNat
  burstBytes : item.States "burstBytes" Json.IsNumber qer.burstBytes.toNat
  generation : item.States "generation" Json.IsNumber qer.generation.toNat

/-- A QER states what an element of `qers` does. -/
structure QerFaithful (item : Json) (qer : Qer) : Prop extends QerRead item qer where
  qfi : item.StatesOptional "qfi" (fun v qfi => v.IsNumber qfi.toNat) qer.qfi

/-- The QFI is not read: it stays absent. -/
structure QerDecoded (item : Json) (qer : Qer) : Prop extends QerRead item qer where
  qfi : qer.qfi = none

omit [ArgumentOrder] in
theorem parseQer_reads (item : Json) :
    Reads (parseQer item) (qerSites item) (QerDecoded item) := by
  have h : Reads (parseQer item) (qerSites item) _ :=
    Reads.atKey fun v => (Reads.getUInt32 v).bind fun id =>
    Reads.atKey fun v => Reads.note (Json.nameGrade_cases _ v) <|
    Reads.atKey fun v => (Reads.getUInt64 v).bind fun rate =>
    Reads.atKey fun v => (Reads.getUInt64 v).bind fun burst =>
    Reads.atKey fun v => (Reads.getUInt32 v).bind fun generation =>
    Reads.pure _
  refine h.congr ?_ ?_
  · rintro _ ⟨v, hv, id, hid, w, hw, hgate, r, hr, rate, hrate, b, hb, burst, hburst, g, hg,
      generation, hgeneration, rfl⟩
    exact {
      id := ⟨v, hv, hid⟩
      gate := ⟨w, hw, (Json.choice_states (by decide) w).mp hgate⟩
      rateBitsPerSecond := ⟨r, hr, hrate⟩
      burstBytes := ⟨b, hb, hburst⟩
      qfi := rfl
      generation := ⟨g, hg, hgeneration⟩ }
  · intro qer h
    obtain ⟨v, hv, hid⟩ := h.id
    obtain ⟨w, hw, hgate⟩ := h.gate
    obtain ⟨r, hr, hrate⟩ := h.rateBitsPerSecond
    obtain ⟨b, hb, hburst⟩ := h.burstBytes
    obtain ⟨g, hg, hgeneration⟩ := h.generation
    refine ⟨_, v, hv, qer.id.value, hid, w, hw, ?_, r, hr, qer.rateBitsPerSecond, hrate, b, hb,
      qer.burstBytes, hburst, g, hg, qer.generation, hgeneration, rfl⟩
    exact Json.nameGrade_eq_exact.mpr ⟨_, by cases qer.gate <;> simp, hgate⟩

def urrSites (item : Json) : List Grade :=
  [item.atSites "id" (·.uintSites 32),
    item.atSites "volumeThresholdBytes" (·.uintSites 64),
    item.atSites "generation" (·.uintSites 32)].flatten

structure UrrFaithful (item : Json) (urr : Urr) : Prop where
  id : item.States "id" Json.IsNumber urr.id.value.toNat
  volumeThresholdBytes :
    item.States "volumeThresholdBytes" Json.IsNumber urr.volumeThresholdBytes.toNat
  generation : item.States "generation" Json.IsNumber urr.generation.toNat

omit [ArgumentOrder] in
theorem parseUrr_reads (item : Json) :
    Reads (parseUrr item) (urrSites item) (UrrFaithful item) := by
  have h : Reads (parseUrr item) (urrSites item) _ :=
    Reads.atKey fun v => (Reads.getUInt32 v).bind fun id =>
    Reads.atKey fun v => (Reads.getUInt64 v).bind fun threshold =>
    Reads.atKey fun v => (Reads.getUInt32 v).bind fun generation =>
    Reads.pure _
  refine h.congr ?_ ?_
  · rintro _ ⟨v, hv, id, hid, t, ht, threshold, hthreshold, g, hg, generation, hgeneration, rfl⟩
    exact ⟨⟨v, hv, hid⟩, ⟨t, ht, hthreshold⟩, ⟨g, hg, hgeneration⟩⟩
  · intro urr h
    obtain ⟨v, hv, hid⟩ := h.id
    obtain ⟨t, ht, hthreshold⟩ := h.volumeThresholdBytes
    obtain ⟨g, hg, hgeneration⟩ := h.generation
    exact ⟨_, v, hv, urr.id.value, hid, t, ht, urr.volumeThresholdBytes, hthreshold, g, hg,
      urr.generation, hgeneration, rfl⟩

/-! ## Packets -/

variable [InetPton]

omit [FloatCast] [ArgumentOrder] in
/-- Both addresses are read as texts before the first is tested. -/
theorem reads_addresses {α : Type} {item : Json} {hs : List Grade}
    {f : IpAddress → IpAddress → Outcome α} {G : IpAddress → IpAddress → α → Prop}
    (h : ∀ a b, Reads (f a b) hs (G a b)) :
    Reads (item.atKey "sourceIp" >>= fun v => v.getString >>= fun s =>
        item.atKey "destinationIp" >>= fun w => w.getString >>= fun d =>
        match (IpAddress.parse s, IpAddress.parse d) with
        | (.ok a, .ok b) => f a b
        | _ => .failed "invalid packet address")
      (item.atSites "sourceIp" (·.parsedSites IpAddress.parse)
        ++ (item.atSites "destinationIp" (·.parsedSites IpAddress.parse) ++ hs))
      (item.States "sourceIp" fun v c => ∃ a, v.IsParsed IpAddress.parse a ∧
        item.States "destinationIp" (fun w c => ∃ b, w.IsParsed IpAddress.parse b ∧ G a b c) c) := by
  have hdestination (a : IpAddress) := Reads.parsed IpAddress.parse (fun d =>
    match ((.ok a : Except String IpAddress), d) with
    | (.ok a, .ok b) => f a b
    | _ => .failed "invalid packet address") (h a) fun _ => rfl
  refine Reads.atKey <| Reads.parsed IpAddress.parse (fun r => item.atKey "destinationIp" >>= fun w =>
    w.getString >>= fun d =>
    match (r, IpAddress.parse d) with
    | (.ok a, .ok b) => f a b
    | _ => .failed "invalid packet address") (fun a => Reads.atKey (hdestination a)) fun e => ?_
  obtain ⟨w, -, hw⟩ | ⟨-, _, hthrew⟩ := item.atKey_eq "destinationIp"
  · rw [hw]
    cases w <;> rfl
  · rw [hthrew]
    rfl

def packetSites (item : Json) : List Grade :=
  [item.atSites "packetId" Json.stringSites,
    item.atSites "sessionId" Json.stringSites,
    item.atSites "ingress" interfaceSites,
    whenSites item "tunnel"
      (pairSites (ArgumentOrder.packetTunnel item) item "tunnel" "teid" 32 "qfi" 8),
    item.atSites "sourceIp" (·.parsedSites IpAddress.parse),
    item.atSites "destinationIp" (·.parsedSites IpAddress.parse),
    item.atSites "protocol" fun v => (protocolSites v).map strict,
    item.atSites "sourcePort" (·.uintSites 16),
    item.atSites "destinationPort" (·.uintSites 16),
    item.atSites "payloadBytes" (·.uintSites 32),
    item.atSites "arrivalTimeMicros" (·.uintSites 64)].flatten

/-- A packet states what an element of `packets` does. -/
structure PacketFaithful (item : Json) (packet : Packet) : Prop where
  packetId : item.States "packetId" (fun v s => v = .string s) packet.packetId
  sessionId : item.States "sessionId" (fun v s => v = .string s) packet.sessionId
  ingress : item.States "ingress" (IsName interfaceName) packet.ingress
  tunnel : item.StatesOptional "tunnel" TunnelFaithful packet.tunnel
  sourceIp : item.States "sourceIp" (Json.IsParsed IpAddress.parse) packet.sourceIp
  destinationIp : item.States "destinationIp" (Json.IsParsed IpAddress.parse) packet.destinationIp
  protocol : item.States "protocol" (IsName protocolName) packet.protocol
  sourcePort : item.States "sourcePort" Json.IsNumber packet.sourcePort.toNat
  destinationPort : item.States "destinationPort" Json.IsNumber packet.destinationPort.toNat
  payloadBytes : item.States "payloadBytes" Json.IsNumber packet.payloadBytes.toNat
  arrivalTimeMicros : item.States "arrivalTimeMicros" Json.IsNumber packet.arrivalTimeMicros.toNat

theorem parsePacket_reads (item : Json) :
    Reads (parsePacket item) (packetSites item) (PacketFaithful item) := by
  have h : Reads (parsePacket item) (packetSites item) _ :=
    Reads.atKey fun v => (Reads.getString v).bind fun packetId =>
    Reads.atKey fun v => (Reads.getString v).bind fun sessionId =>
    Reads.atKey fun v => Reads.note (Json.nameGrade_cases _ v) <|
    (reads_whenPresent (parseTunnel_reads _ item)).bind fun tunnel =>
    reads_addresses fun sourceIp destinationIp =>
    Reads.atKey <| reads_protocol_strict fun protocol =>
    Reads.atKey fun v => (Reads.getUInt16 v).bind fun sourcePort =>
    Reads.atKey fun v => (Reads.getUInt16 v).bind fun destinationPort =>
    Reads.atKey fun v => (Reads.getUInt32 v).bind fun payloadBytes =>
    Reads.atKey fun v => (Reads.getUInt64 v).bind fun arrivalTimeMicros =>
    Reads.pure _
  refine h.congr ?_ ?_
  · rintro _ ⟨i, hi, packetId, hpacket, s, hs, sessionId, hsession, g, hg, hingress, tunnel, htunnel,
      a, ha, sourceIp, hsource, b, hb, destinationIp, hdestination, t, ht, protocol, hprotocol,
      m, hm, sourcePort, hfrom, n, hn, destinationPort, hto, l, hl, payloadBytes, hbytes, w, hw,
      arrivalTimeMicros, htime, rfl⟩
    exact {
      packetId := ⟨i, hi, hpacket⟩
      sessionId := ⟨s, hs, hsession⟩
      ingress := ⟨g, hg, interfaceOf_states.mp hingress⟩
      tunnel := htunnel
      sourceIp := ⟨a, ha, hsource⟩
      destinationIp := ⟨b, hb, hdestination⟩
      protocol := ⟨t, ht, hprotocol⟩
      sourcePort := ⟨m, hm, hfrom⟩
      destinationPort := ⟨n, hn, hto⟩
      payloadBytes := ⟨l, hl, hbytes⟩
      arrivalTimeMicros := ⟨w, hw, htime⟩ }
  · intro packet h
    obtain ⟨i, hi, hpacket⟩ := h.packetId
    obtain ⟨s, hs, hsession⟩ := h.sessionId
    obtain ⟨g, hg, hingress⟩ := h.ingress
    obtain ⟨a, ha, hsource⟩ := h.sourceIp
    obtain ⟨b, hb, hdestination⟩ := h.destinationIp
    obtain ⟨t, ht, hprotocol⟩ := h.protocol
    obtain ⟨m, hm, hfrom⟩ := h.sourcePort
    obtain ⟨n, hn, hto⟩ := h.destinationPort
    obtain ⟨l, hl, hbytes⟩ := h.payloadBytes
    obtain ⟨w, hw, htime⟩ := h.arrivalTimeMicros
    exact ⟨_, i, hi, packet.packetId, hpacket, s, hs, packet.sessionId, hsession, g, hg,
      (reads_interfaceOf g).only _ hingress _ List.mem_cons_self, packet.tunnel, h.tunnel,
      a, ha, packet.sourceIp, hsource, b, hb, packet.destinationIp, hdestination,
      t, ht, packet.protocol, hprotocol, m, hm, packet.sourcePort, hfrom, n, hn,
      packet.destinationPort, hto, l, hl, packet.payloadBytes, hbytes, w, hw,
      packet.arrivalTimeMicros, htime, rfl⟩

def packetsSites (root : Json) : List Grade := root.atSites "packets" (Json.listSites packetSites)

theorem readPackets_reads (root : Json) :
    Reads (readPackets root) (packetsSites root)
      (root.States "packets" (Json.Lists PacketFaithful)) :=
  Reads.atKey_last (Reads.list parsePacket_reads)

/-! ## Rulesets -/

def rulesSites (root : Json) : List Grade :=
  [root.atSites "sessionId" Json.stringSites,
    root.atSites "rulesetVersion" (·.uintSites 64),
    root.atSites "pdrs" (Json.listSites pdrSites),
    root.atSites "fars" (Json.listSites farSites),
    root.atSites "qers" (Json.listSites qerSites),
    root.atSites "urrs" (Json.listSites urrSites)].flatten

/-- A ruleset states what a document does, its PDRs and QERs in the sense of
`P` and `Q`. -/
structure RulesStated (P : Json → Pdr → Prop) (Q : Json → Qer → Prop) (root : Json)
    (rules : RuleSet) : Prop where
  sessionId : root.States "sessionId" (fun v s => v = .string s) rules.sessionId
  version : root.States "rulesetVersion" Json.IsNumber rules.version.toNat
  pdrs : root.States "pdrs" (Json.Lists P) rules.pdrs
  fars : root.States "fars" (Json.Lists FarFaithful) rules.fars
  qers : root.States "qers" (Json.Lists Q) rules.qers
  urrs : root.States "urrs" (Json.Lists UrrFaithful) rules.urrs

def RulesFaithful (root : Json) (rules : RuleSet) : Prop :=
  RulesStated PdrFaithful QerFaithful root rules

theorem readRules_reads (root : Json) :
    Reads (readRules root) (rulesSites root) (RulesStated PdrDecoded QerDecoded root) := by
  have h : Reads (readRules root) (rulesSites root) _ :=
    Reads.atKey fun v => (Reads.getString v).bind fun sessionId =>
    Reads.atKey fun v => (Reads.getUInt64 v).bind fun version =>
    Reads.atKey fun v => (Reads.list parsePdr_reads v).seq fun pdrs =>
    Reads.atKey fun v => (Reads.list parseFar_reads v).seq fun fars =>
    Reads.atKey fun v => (Reads.list parseQer_reads v).seq fun qers =>
    Reads.atKey fun v => (Reads.list parseUrr_reads v).seq fun urrs =>
    Reads.pure _
  refine h.congr ?_ ?_
  · rintro _ ⟨s, hs, sessionId, hsession, v, hv, version, hversion, p, hp, pdrs, hpdrs, f, hf, fars,
      hfars, q, hq, qers, hqers, u, hu, urrs, hurrs, rfl⟩
    exact ⟨⟨s, hs, hsession⟩, ⟨v, hv, hversion⟩, ⟨p, hp, hpdrs⟩, ⟨f, hf, hfars⟩, ⟨q, hq, hqers⟩,
      ⟨u, hu, hurrs⟩⟩
  · intro rules h
    obtain ⟨s, hs, hsession⟩ := h.sessionId
    obtain ⟨v, hv, hversion⟩ := h.version
    obtain ⟨p, hp, hpdrs⟩ := h.pdrs
    obtain ⟨f, hf, hfars⟩ := h.fars
    obtain ⟨q, hq, hqers⟩ := h.qers
    obtain ⟨u, hu, hurrs⟩ := h.urrs
    exact ⟨_, s, hs, rules.sessionId, hsession, v, hv, rules.version, hversion, p, hp, rules.pdrs,
      hpdrs, f, hf, rules.fars, hfars, q, hq, rules.qers, hqers, u, hu, rules.urrs, hurrs, rfl⟩

/-! ## What is not read -/

/-- Nothing is stated where the readers do not look: no PDR has a generation
other than 1, and no QER has a QFI. -/
structure NothingUnread (root : Json) : Prop where
  generations :
    root.EachOf "pdrs" fun item => ∀ v, item.member? "generation" = some v → v.IsNumber 1
  qfis : root.EachOf "qers" fun item => item.member? "qfi" = none

section Unread

omit [FloatCast] [ArgumentOrder]

theorem PdrDecoded.faithful_iff {item : Json} {pdr : Pdr} (h : PdrDecoded item pdr) :
    PdrFaithful item pdr ↔ ∀ v, item.member? "generation" = some v → v.IsNumber 1 := by
  have hone : pdr.generation.toNat = 1 := by rw [h.generation]; rfl
  constructor
  · rintro ⟨-, ⟨v, hv, hnumber⟩ | ⟨hnone, -⟩⟩ w hw
    · obtain rfl := Option.some.inj (hv.symm.trans hw)
      rwa [hone] at hnumber
    · cases hnone.symm.trans hw
  · intro hgeneration
    refine ⟨h.toPdrRead, ?_⟩
    cases hmember : item.member? "generation" with
    | none => exact .inr ⟨hmember, h.generation⟩
    | some v =>
      have hnumber := hgeneration v hmember
      rw [← hone] at hnumber
      exact .inl ⟨v, hmember, hnumber⟩

omit [InetPton] in
theorem QerDecoded.faithful_iff {item : Json} {qer : Qer} (h : QerDecoded item qer) :
    QerFaithful item qer ↔ item.member? "qfi" = none := by
  constructor
  · rintro ⟨-, hqfi⟩
    rwa [h.qfi] at hqfi
  · intro hnone
    exact ⟨h.toQerRead, by rw [h.qfi]; exact hnone⟩

variable {root : Json} {rules : RuleSet}

omit [InetPton] in
/-- A ruleset stated in one sense is stated in another where each PDR and
each QER of the document allows it. -/
theorem RulesStated.congr_iff {P P' : Json → Pdr → Prop} {Q Q' : Json → Qer → Prop}
    {A B : Json → Prop} (h : RulesStated P Q root rules)
    (hP : ∀ item pdr, P item pdr → (P' item pdr ↔ A item))
    (hQ : ∀ item qer, Q item qer → (Q' item qer ↔ B item)) :
    RulesStated P' Q' root rules ↔ root.EachOf "pdrs" A ∧ root.EachOf "qers" B := by
  rw [← Json.states_lists_iff h.pdrs hP, ← Json.states_lists_iff h.qers hQ]
  constructor
  · intro h'
    exact ⟨h'.pdrs, h'.qers⟩
  · rintro ⟨hpdrs, hqers⟩
    exact { h with pdrs := hpdrs, qers := hqers }

/-- **What is decoded is faithful** where nothing is left unread. -/
theorem rulesFaithful_iff (h : RulesStated PdrDecoded QerDecoded root rules) :
    RulesFaithful root rules ↔ NothingUnread root := by
  rw [RulesFaithful, h.congr_iff (fun _ _ => PdrDecoded.faithful_iff)
    fun _ _ => QerDecoded.faithful_iff]
  exact ⟨fun h => ⟨h.1, h.2⟩, fun h => ⟨h.generations, h.qfis⟩⟩

/-- A faithful ruleset is decoded but for what is not read. -/
theorem RulesFaithful.decoded (h : RulesFaithful root rules) :
    RulesStated PdrDecoded QerDecoded root { rules with
      pdrs := rules.pdrs.map ({ · with generation := 1 })
      qers := rules.qers.map ({ · with qfi := none }) } where
  sessionId := h.sessionId
  version := h.version
  pdrs := Json.states_lists_map h.pdrs fun _ _ hpdr => { hpdr.toPdrRead with generation := rfl }
  fars := h.fars
  qers := Json.states_lists_map h.qers fun _ _ hqer => { hqer.toQerRead with qfi := rfl }
  urrs := h.urrs

end Unread

/-- Rules are decoded faithfully, and a document of which there is no
faithful decoding is rejected with a failure. -/
structure RulesDecoded (root : Json) : Prop where
  faithful : ∀ rules, parseRules root = .value rules → RulesFaithful root rules
  closed : (∀ rules, ¬ RulesFaithful root rules) → ∃ e, parseRules root = .failed e

/-- **Rules decoding** is faithful and fails closed exactly on the documents
that stop the reader at a place it tests, and on those of which every place
is exact and nothing is left unread. -/
theorem rules_decoded_iff (root : Json) :
    RulesDecoded root ↔ Grade.ending (rulesSites root) = .stops ∨
      Grade.AllExact (rulesSites root) ∧ NothingUnread root := by
  have hreads := readRules_reads root
  have hfailed : (∃ e, parseRules root = .failed e) ↔ Grade.ending (rulesSites root) = .stops := by
    rw [← hreads.ends]
    exact Outcome.rescue_eq_failed
  have hvalue {rules : RuleSet} : parseRules root = .value rules ↔ readRules root = .value rules :=
    Outcome.rescue_eq_value
  constructor
  · rintro ⟨hfaithful, hclosed⟩
    by_cases hex : ∃ rules, RulesFaithful root rules
    · -- the places are exact, so what is read is the faithful ruleset
      obtain ⟨rules, hrules⟩ := hex
      have hall := hreads.only _ hrules.decoded
      obtain ⟨decoded, hread, hdecoded⟩ := hreads.exact hall
      exact .inr ⟨hall, (rulesFaithful_iff hdecoded).mp (hfaithful decoded (hvalue.mpr hread))⟩
    · exact .inl (hfailed.mp (hclosed (not_exists.mp hex)))
  · rintro (hstops | ⟨hall, hnothing⟩)
    · obtain ⟨e, he⟩ := hfailed.mpr hstops
      refine ⟨fun rules hrules => ?_, fun _ => ⟨e, he⟩⟩
      cases he.symm.trans hrules
    · refine ⟨fun rules hrules => ?_, fun hnone => ?_⟩
      · exact (rulesFaithful_iff ((hreads.states_iff (hvalue.mp hrules)).mpr hall)).mpr hnothing
      · obtain ⟨rules, -, hrules⟩ := hreads.exact hall
        exact absurd ((rulesFaithful_iff hrules).mpr hnothing) (hnone rules)

end Reading

/-- One uplink PDR of ID 2³² + 10 for the protocol SCTP. -/
def strayRules : Json :=
  .object [
    ("sessionId", .string "session-1"), ("rulesetVersion", .unsigned 3),
    ("pdrs", .array [.object [
      ("id", .unsigned 4294967306), ("precedence", .unsigned 100),
      ("sourceInterface", .string "N3"), ("teid", .unsigned 1001),
      ("uePrefix", .string "10.10.0.0/16"), ("protocol", .string "SCTP"),
      ("farId", .unsigned 20)]]),
    ("fars", .array [.object [
      ("id", .unsigned 20), ("action", .string "FORWARD"), ("destinationInterface", .string "N6"),
      ("tunnelOperation", .string "REMOVE")]]),
    ("qers", .array []), ("urrs", .array [])]

/-- It is read as a PDR of ID 10 for every protocol. -/
example : (@parseRules noFloats dottedPton secondFirst strayRules).toOption.map
    (fun rules => rules.pdrs.map fun pdr => (pdr.id.value, pdr.protocol)) = some [(10, none)] := by
  decide +kernel

theorem rules_decoded_stray : ¬ ∀ root, @RulesDecoded noFloats secondFirst dottedPton root := by
  intro h
  have hreads := @readRules_reads noFloats secondFirst dottedPton strayRules
  have hreturns : (@readRules noFloats dottedPton secondFirst strayRules).ending = .returns := by
    decide +kernel
  obtain ⟨rules, hrules⟩ := Outcome.ending_eq_returns.mp hreturns
  have hdecoded : @RulesDecoded noFloats secondFirst dottedPton strayRules := h strayRules
  have hfaithful := @hdecoded.faithful rules (Outcome.rescue_eq_value.mpr hrules)
  have hinexact : ¬ Grade.AllExact (@rulesSites secondFirst dottedPton strayRules) := by
    decide +kernel
  exact hinexact (hreads.only _ (@RulesFaithful.decoded dottedPton _ _ hfaithful))

end UpfPolicy
