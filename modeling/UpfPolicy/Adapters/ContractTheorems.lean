/-
UpfPolicy.Adapters.ContractTheorems — rendered decisions and the published
contract of a result.

`decision_iff` says what the contract asks of a decision: IDs that are not
zero, valid tunnels, a transformed packet that obeys the packets contract,
and one of the outcomes it lists. Everything but the outcome holds of every
decision of an accepted run. The engine has one outcome the contract does
not list, `ARITHMETIC_ERROR`, and `decisions_conform_iff` says that this is
the only difference.
-/
import UpfPolicy.Adapters.Contracts
import UpfPolicy.Adapters.FileRunTheorems
import UpfPolicy.Application.ExplanationTheorems
import UpfPolicy.Application.OverlapTheorems
import UpfPolicy.Domain.QerTheorems

namespace UpfPolicy

open Support Support.Schema

/-! ## The parts of a decision -/

theorem one_le_toNat {n : UInt32} : 1 ≤ n.toNat ↔ n ≠ 0 := by
  rw [Nat.one_le_iff_ne_zero]
  exact not_congr (UInt32.toNat_inj (b := 0))

theorem nullableId_iff {condition : Bool} {n : UInt32} :
    Contracts.nullableId (nullUnless condition (unsigned32 n)) = true ↔
      (condition = true → n ≠ 0) := by
  cases condition with
  | false => simp [nullUnless, Contracts.nullableId, typed, JsonType.test, minimum, Json.numberValue]
  | true =>
    simp [nullUnless, Contracts.nullableId, unsigned32, typed_unsigned, minimum_unsigned,
      one_le_toNat]

theorem nullableCount_iff (condition : Bool) (n : UInt64) :
    Contracts.nullableCount (nullUnless condition (.unsigned n)) = true := by
  cases condition with
  | false => simp [nullUnless, Contracts.nullableCount, typed, JsonType.test, minimum, Json.numberValue]
  | true => simp [nullUnless, Contracts.nullableCount, typed_unsigned, minimum_unsigned]

/-- What the contract asks of the QER part. -/
structure QerDecision.Fits (d : QerDecision) : Prop where
  id : d.applicable = true → d.qerId ≠ 0
  outcome : d.applicable = true →
    d.outcome ∈ ["ALLOW", "GATE_CLOSED", "RATE_LIMITED", "NOT_APPLICABLE"]

theorem qerResult_iff (d : QerDecision) : Contracts.qerResult (qerJson d) = true ↔ d.Fits := by
  rw [Contracts.qerResult, qerJson, record_aligned rfl (by decide) (by decide)]
  simp only [List.zip_cons_cons, List.zip_nil_left, List.forall_mem_cons, List.not_mem_nil,
    false_imp_iff, implies_true, nullableId_iff, nullableCount_iff, enum_string, true_and, and_true]
  constructor
  · rintro ⟨hid, -, houtcome⟩
    exact ⟨hid, fun happlicable => by rwa [if_pos happlicable] at houtcome⟩
  · intro h
    refine ⟨h.id, ?_, ?_⟩
    · split_ifs <;> simp
    · split_ifs with happlicable
      · exact h.outcome happlicable
      · simp

/-- A tunnel is rendered as it is, or as null. -/
theorem nullableTunnel_iff (t : Option TunnelMetadata) :
    Contracts.nullableTunnel (tunnelJson t) = true ↔ ∀ tunnel ∈ t, tunnel.valid = true := by
  cases t with
  | none => simp [Contracts.nullableTunnel, tunnelJson, typed, JsonType.test, fields]
  | some tunnel =>
    have htype : typed [.object, .null] (tunnelJson (some tunnel)) = true := rfl
    rw [Contracts.nullableTunnel, allOf_iff, List.forall_mem_cons, List.forall_mem_singleton, htype,
      tunnelJson, fields_aligned rfl (by decide) (by decide)]
    simp only [List.zip_cons_cons, List.zip_nil_left, List.forall_mem_cons, List.not_mem_nil,
      false_imp_iff, implies_true, true_and, and_true, Contracts.qfi, unsigned8, unsigned32,
      integerFrom_unsigned, integerIn_unsigned, UInt32.toNat_toUInt64, UInt8.toNat_toUInt64,
      one_le_toNat, Option.mem_def, Option.some.injEq, forall_eq',
      TunnelMetadata.valid_iff, UInt8.le_iff_toNat_le]
    exact Iff.rfl

/-- What the contract asks of the FAR part. -/
structure FarDecision.Fits (d : FarDecision) : Prop where
  id : d.applicable = true → d.farId ≠ 0
  before : ∀ tunnel ∈ d.before, tunnel.valid = true
  after : ∀ tunnel ∈ d.after, tunnel.valid = true

theorem farResult_iff (d : FarDecision) : Contracts.farResult (farJson d) = true ↔ d.Fits := by
  rw [Contracts.farResult, farJson, record_aligned rfl (by decide) (by decide)]
  simp only [List.zip_cons_cons, List.zip_nil_left, List.forall_mem_cons, List.not_mem_nil,
    false_imp_iff, implies_true, nullableId_iff, nullableTunnel_iff, enum_string, and_true]
  constructor
  · rintro ⟨hid, -, -, hbefore, hafter⟩
    exact ⟨hid, hbefore, hafter⟩
  · intro h
    refine ⟨h.id, ?_, ?_, h.before, h.after⟩
    · split_ifs <;> simp
    · split_ifs
      · simp
      · cases d.destination <;> simp [interfaceName]
      · simp

theorem urrResult_iff (d : UrrDecision) :
    Contracts.urrResult (urrJson d) = true ↔ (d.applicable = true → d.urrId ≠ 0) := by
  rw [Contracts.urrResult, urrJson, record_aligned rfl (by decide) (by decide)]
  have hreached : typed [.boolean, .null]
      (nullUnless d.applicable (.boolean d.thresholdReached)) = true := by
    cases d.applicable <;> rfl
  have hreport : typed [.string, .null]
      (nullUnless (!d.reportId.isEmpty) (.string d.reportId)) = true := by
    cases d.reportId.isEmpty <;> rfl
  simp only [List.zip_cons_cons, List.zip_nil_left, List.forall_mem_cons, List.not_mem_nil,
    false_imp_iff, implies_true, nullableId_iff, nullableCount_iff, hreached, hreport, and_true]
  exact and_iff_left rfl

/-! ## Candidates -/

def criterionNames : List String :=
  ["ingress", "tunnel", "prefix", "protocol", "localPort", "remotePort", "qfi"]

theorem criterion_iff (item : CriterionResult) :
    Contracts.criterion (criterionJson item) = true ↔ item.name ∈ criterionNames := by
  rw [Contracts.criterion, criterionJson, record_aligned rfl (by decide) (by decide)]
  have hmatched : typed [.boolean, .null]
      (nullUnless item.applicable (.boolean item.matched)) = true := by
    cases item.applicable <;> rfl
  have htext (s : String) : typed [.string, .integer, .null]
      (nullUnless (!s.isEmpty) (.string s)) = true := by
    cases s.isEmpty <;> rfl
  simp only [List.zip_cons_cons, List.zip_nil_left, List.forall_mem_cons, List.not_mem_nil,
    false_imp_iff, implies_true, enum_string, hmatched, htext, and_true]
  exact and_iff_left rfl

structure MatchCandidate.Fits (c : MatchCandidate) : Prop where
  id : c.pdrId ≠ 0
  names : ∀ item ∈ c.criteria, item.name ∈ criterionNames

theorem candidate_iff (c : MatchCandidate) :
    Contracts.candidate (candidateJson c) = true ↔ c.Fits := by
  rw [Contracts.candidate, candidateJson, record_aligned rfl (by decide) (by decide)]
  simp only [List.zip_cons_cons, List.zip_nil_left, List.forall_mem_cons, List.not_mem_nil,
    false_imp_iff, implies_true, unsigned32, integerFrom_unsigned, UInt32.toNat_toUInt64,
    one_le_toNat, arrayOf_array, List.forall_mem_map, criterion_iff, and_true]
  constructor
  · rintro ⟨hid, -, hnames⟩
    exact ⟨hid, hnames⟩
  · intro h
    exact ⟨h.id, rfl, h.names⟩

/-! ## Packets -/

/-- What a packet needs for its rendering to obey the packets contract. -/
structure Packet.Fits [InetText] (packet : Packet) : Prop where
  packetId : Contracts.nonEmptyId (.string packet.packetId) = true
  sessionId : Contracts.nonEmptyId (.string packet.sessionId) = true
  sourceIp : Contracts.address (.string packet.sourceIp.toString) = true
  destinationIp : Contracts.address (.string packet.destinationIp.toString) = true
  tunnel : ∀ tunnel ∈ packet.tunnel, tunnel.valid = true

theorem tunnel_conforms {t : TunnelMetadata} (h : t.valid = true) :
    Contracts.tunnel (tunnelJson (some t)) = true := by
  rw [Contracts.tunnel, tunnelJson, record_aligned rfl (by decide) (by decide)]
  obtain ⟨hteid, hone, hmax⟩ := (TunnelMetadata.valid_iff t).mp h
  rw [UInt8.le_iff_toNat_le] at hone hmax
  simp only [List.zip_cons_cons, List.zip_nil_left, List.forall_mem_cons, List.not_mem_nil,
    false_imp_iff, implies_true, and_true, Contracts.qfi, unsigned8, unsigned32, integerIn_unsigned,
    UInt32.toNat_toUInt64, UInt8.toNat_toUInt64, one_le_toNat]
  exact ⟨⟨hteid, Nat.le_of_lt_succ t.teid.toNat_lt⟩, hone, hmax⟩

theorem packet_conforms [InetText] {packet : Packet} (h : packet.Fits) :
    Contracts.packet (packetJson packet) = true := by
  rw [Contracts.packet, packetJson, record_object]
  refine fields_of_members (by decide) (fun name hname => ?_) ?_
  · rw [List.map_append]
    exact List.mem_append_left _ hname
  · refine List.forall_mem_append.mpr ⟨?_, ?_⟩
    · simp only [List.forall_mem_cons, List.not_mem_nil, false_imp_iff, implies_true, and_true]
      refine ⟨⟨Contracts.nonEmptyId, by simp, h.packetId⟩, ⟨Contracts.nonEmptyId, by simp, h.sessionId⟩,
        ⟨Contracts.interface, by simp, ?_⟩, ⟨Contracts.address, by simp, h.sourceIp⟩,
        ⟨Contracts.address, by simp, h.destinationIp⟩, ⟨Contracts.transport, by simp, ?_⟩,
        ⟨Contracts.port, by simp, ?_⟩, ⟨Contracts.port, by simp, ?_⟩,
        ⟨integerIn 0 4294967295, by simp, ?_⟩, ⟨Contracts.uint64, by simp, ?_⟩⟩
      · cases packet.ingress <;> decide
      · cases packet.protocol <;> decide
      · rw [Contracts.port, integerIn_unsigned, UInt16.toNat_toUInt64]
        exact ⟨Nat.zero_le _, Nat.le_of_lt_succ packet.sourcePort.toNat_lt⟩
      · rw [Contracts.port, integerIn_unsigned, UInt16.toNat_toUInt64]
        exact ⟨Nat.zero_le _, Nat.le_of_lt_succ packet.destinationPort.toNat_lt⟩
      · rw [unsigned32, integerIn_unsigned, UInt32.toNat_toUInt64]
        exact ⟨Nat.zero_le _, Nat.le_of_lt_succ packet.payloadBytes.toNat_lt⟩
      · rw [Contracts.uint64, integerIn_unsigned]
        exact ⟨Nat.zero_le _, Nat.le_of_lt_succ packet.arrivalTimeMicros.toNat_lt⟩
    · cases htunnel : packet.tunnel with
      | none => simp
      | some t =>
        simp only [Option.isSome_some, if_true, List.forall_mem_singleton]
        exact ⟨Contracts.tunnel, by simp, tunnel_conforms (h.tunnel t htunnel)⟩

/-! ## Decisions -/

/-- What the contract asks of a decision. -/
structure PacketDecision.Fits [InetText] (d : PacketDecision) : Prop where
  version : d.rulesetVersion ≠ 0
  candidates : ∀ c ∈ d.candidates, c.Fits
  qer : d.qer.Fits
  far : d.far.Fits
  urr : d.urr.applicable = true → d.urr.urrId ≠ 0
  transformed : d.transformedPresent = true →
    ∀ packet ∈ d.transformedPacket, Contracts.packet (packetJson packet) = true

theorem terminalResult_listed (r : TerminalResult) :
    enum ["FORWARDED_TO_N3", "FORWARDED_TO_N6", "FAR_DROPPED", "NO_MATCH", "MALFORMED_PACKET",
      "GATE_CLOSED", "RATE_LIMITED", "PACKET_QUEUE_FULL", "SHUTDOWN_DEADLINE", "ARITHMETIC_ERROR",
      "CAPACITY_ERROR"] (.string (terminalResultName r)) = true := by
  cases r <;> decide

/-- A transformed packet is a packet or null, and never both. -/
theorem transformedPacket_iff [InetText] (present : Bool) (packet : Option Packet) :
    oneOf [Contracts.packet, typed [.null]]
        (nullUnless present ((packet.map packetJson).getD .null)) = true ↔
      (present = true → ∀ p ∈ packet, Contracts.packet (packetJson p) = true) := by
  have hnull : oneOf [Contracts.packet, typed [.null]] .null = true := rfl
  cases present with
  | false => exact iff_of_true hnull nofun
  | true =>
    cases packet with
    | none => exact iff_of_true hnull fun _ p hp => absurd hp (Option.not_mem_none p)
    | some p =>
      have hkind : typed [.null] (packetJson p) = false := rfl
      simp [nullUnless, oneOf, hkind, List.countP_cons]

/-- **The contract of a decision**, read off the decision. -/
theorem decision_iff [InetText] (d : PacketDecision) :
    Contracts.decision (decisionJson d) = true ↔ d.Fits := by
  rw [Contracts.decision, decisionJson, record_aligned rfl (by decide) (by decide)]
  have hingress : Contracts.interface (.string (interfaceName d.ingress)) = true := by
    cases d.ingress <;> decide
  have hupdate : typed [.string, .null]
      (nullUnless (!d.updateId.isEmpty) (.string d.updateId)) = true := by
    cases d.updateId.isEmpty <;> rfl
  have hsink : enum ["N3", "N6", "NONE"]
      (.string (if d.sinkPresent then interfaceName d.sink else "NONE")) = true := by
    cases d.sinkPresent <;> cases d.sink <;> decide
  have hselected (n : UInt32) : ((n != 0) = true → n ≠ 0) ↔ True := by simp
  simp only [List.zip_cons_cons, List.zip_nil_left, List.forall_mem_cons, List.not_mem_nil,
    false_imp_iff, implies_true, integerFrom_unsigned, arrayOf_array, List.forall_mem_map,
    candidate_iff, nullableId_iff, qerResult_iff, farResult_iff, urrResult_iff,
    terminalResult_listed, transformedPacket_iff, hingress, hupdate, hsink, hselected, true_and,
    and_true]
  constructor
  · rintro ⟨-, -, -, hversion, hcandidates, hqer, hfar, hurr, htransformed, -⟩
    refine ⟨?_, hcandidates, hqer, hfar, hurr, htransformed⟩
    rintro hzero
    rw [hzero] at hversion
    exact absurd hversion (by decide)
  · intro h
    refine ⟨rfl, rfl, Nat.zero_le _, ?_, h.candidates, h.qer, h.far, h.urr, h.transformed, rfl⟩
    exact Nat.one_le_iff_ne_zero.mpr fun hzero => h.version (UInt64.toNat_inj.mp hzero)

/-- Everything the contract asks of a decision, the QER outcome apart. -/
structure PacketDecision.Framed [InetText] (d : PacketDecision) : Prop where
  version : d.rulesetVersion ≠ 0
  candidates : ∀ c ∈ d.candidates, c.Fits
  qerId : d.qer.applicable = true → d.qer.qerId ≠ 0
  far : d.far.Fits
  urr : d.urr.applicable = true → d.urr.urrId ≠ 0
  transformed : d.transformedPresent = true →
    ∀ packet ∈ d.transformedPacket, Contracts.packet (packetJson packet) = true

theorem PacketDecision.Framed.fits_iff [InetText] {d : PacketDecision} (h : d.Framed) :
    d.Fits ↔ (d.qer.applicable = true →
      d.qer.outcome ∈ ["ALLOW", "GATE_CLOSED", "RATE_LIMITED", "NOT_APPLICABLE"]) := by
  constructor
  · intro hfits
    exact hfits.qer.outcome
  · intro houtcome
    exact ⟨h.version, h.candidates, ⟨h.qerId, houtcome⟩, h.far, h.urr, h.transformed⟩

theorem PacketDecision.Framed.fits [InetText] {d : PacketDecision} (h : d.Framed)
    (hnone : d.qer.applicable = false) : d.Fits :=
  h.fits_iff.mpr fun happlicable => absurd (hnone.symm.trans happlicable) Bool.false_ne_true

/-! ## The engine's outcomes -/

theorem evaluateQer_names (qer : Qer) (current : TokenBucketState)
    (packetBytes nowMicros : UInt64) :
    (evaluateQer qer current packetBytes nowMicros).decision.applicable = true ∧
      (evaluateQer qer current packetBytes nowMicros).decision.qerId = qer.id.value := by
  have hcharge (numerator : UInt64) :
      (qerRefillAndCharge qer current packetBytes nowMicros numerator).decision.applicable = true ∧
      (qerRefillAndCharge qer current packetBytes nowMicros numerator).decision.qerId
        = qer.id.value := by
    unfold qerRefillAndCharge
    dsimp only
    generalize current.tokensBytes + stdMin _ (numerator / 8000000) = tokens
    split <;> exact ⟨rfl, rfl⟩
  unfold evaluateQer
  split
  · exact ⟨rfl, rfl⟩
  · split
    · exact ⟨rfl, rfl⟩
    · split
      · exact ⟨rfl, rfl⟩
      · exact hcharge _

/-- **The outcomes of the engine** are listed by the contract, unless an open
QER cannot be refilled. -/
theorem evaluateQer_listed_iff (qer : Qer) (current : TokenBucketState)
    (packetBytes nowMicros : UInt64) :
    (evaluateQer qer current packetBytes nowMicros).decision.outcome
        ∈ ["ALLOW", "GATE_CLOSED", "RATE_LIMITED", "NOT_APPLICABLE"] ↔
      (qer.gate = .opened → QerRefills qer current nowMicros) := by
  cases hgate : qer.gate with
  | closed =>
    rw [evaluateQer, if_pos hgate]
    exact iff_of_true (by simp) fun hopened => by cases hopened
  | opened =>
    by_cases hrefills : QerRefills qer current nowMicros
    · refine iff_of_true ?_ fun _ => hrefills
      cases evaluateQer_served hrefills packetBytes with
      | allowed _ htext => simp [htext]
      | limited _ htext => simp [htext]
    · refine iff_of_false ?_ fun h => hrefills (h rfl)
      rw [(evaluateQer_error_iff hgate current packetBytes nowMicros).mpr hrefills]
      decide

theorem evaluateUrr_names (urr : Urr) (current : UsageCounterState) (payloadBytes : UInt64)
    (sessionId : String) (rulesetVersion : UInt64) :
    (evaluateUrr urr current payloadBytes sessionId rulesetVersion).decision.urrId
      = urr.id.value := by
  unfold evaluateUrr
  dsimp only
  split
  · split
    · rfl
    · rfl
  · rfl

/-! ## The stages -/

/-- `inet_ntop` writes an ASCII text of 2 to 45 characters. -/
structure TextFits [InetText] : Prop where
  ascii : ∀ family bytes, ∀ c ∈ (InetText.ntop family bytes).toList, c.toNat < 0x80
  length_ge : ∀ family bytes, 2 ≤ (InetText.ntop family bytes).length
  length_le : ∀ family bytes, (InetText.ntop family bytes).length ≤ 45

theorem TextFits.address [InetText] (h : TextFits) (a : IpAddress) :
    Contracts.address (.string a.toString) = true := by
  have hpoints := codePoints_ascii (h.ascii a.family a.bytes)
  simp only [Contracts.address, allOf_iff, List.forall_mem_cons, List.not_mem_nil, false_imp_iff,
    implies_true, and_true, minLength, maxLength, ofText, decide_eq_true_eq]
  refine ⟨rfl, ?_, ?_⟩
  · exact hpoints ▸ h.length_ge a.family a.bytes
  · exact hpoints ▸ h.length_le a.family a.bytes

/-- The names of a packet are IDs. -/
structure Packet.Named (packet : Packet) : Prop where
  packetId : Contracts.nonEmptyId (.string packet.packetId) = true
  sessionId : Contracts.nonEmptyId (.string packet.sessionId) = true

/-- A packet that is let in, and what the FAR of its winner makes of it. -/
theorem Packet.Named.fits [InetText] (htext : TextFits) {packet out : Packet} (h : packet.Named)
    (hsame : { out with tunnel := packet.tunnel } = packet)
    (htunnel : ∀ tunnel ∈ out.tunnel, tunnel.valid = true) : out.Fits where
  packetId := by
    have hid := congrArg Packet.packetId hsame
    dsimp only at hid
    rw [hid]
    exact h.packetId
  sessionId := by
    have hid := congrArg Packet.sessionId hsame
    dsimp only at hid
    rw [hid]
    exact h.sessionId
  sourceIp := htext.address out.sourceIp
  destinationIp := htext.address out.destinationIp
  tunnel := htunnel

/-- The tunnels a decision reports are valid. -/
theorem PacketWellFormed.tunnel_valid {packet : Packet} (h : PacketWellFormed packet) :
    ∀ tunnel ∈ packet.tunnel, tunnel.valid = true := by
  intro tunnel htunnel
  cases hside : packet.ingress with
  | n3 =>
    obtain ⟨t, ht, hvalid⟩ := h.tunnelN3 hside
    rw [ht] at htunnel
    cases htunnel
    exact hvalid
  | n6 =>
    rw [h.tunnelN6 hside] at htunnel
    cases htunnel

theorem Transformed.tunnel_valid {packet out : Packet} {side : Interface}
    (h : Transformed packet side out) : ∀ tunnel ∈ out.tunnel, tunnel.valid = true := by
  intro tunnel htunnel
  cases hside : packet.ingress with
  | n3 =>
    rw [h.uplink hside] at htunnel
    cases htunnel
  | n6 =>
    obtain ⟨t, ht, hvalid⟩ := h.downlink hside
    rw [ht] at htunnel
    cases htunnel
    exact hvalid

/-- What a later stage leaves of a decision: the frame and the QER. -/
structure FrameKept [InetText] (d d' : PacketDecision) : Prop where
  framed : d'.Framed
  qer : d'.qer = d.qer

section Stages

variable [InetText] {rules : RuleSet} {packet : Packet} {winner : Pdr} {far : Far}
  {d : PacketDecision} (v : View) (planned : Effect)

theorem commit_framed (hd : d.Framed)
    (hout : far.action = .forward → (evaluateFar far packet).packet.Fits) :
    FrameKept d (v.commit d far (evaluateFar far packet) planned).decision := by
  unfold View.commit
  split
  · exact ⟨{ hd with }, rfl⟩
  · cases haction : far.action with
    | drop => exact ⟨{ hd with }, rfl⟩
    | forward =>
      refine ⟨{ hd with transformed := fun _ out hsome => ?_ }, rfl⟩
      cases hsome
      exact packet_conforms (hout haction)

theorem account_framed {limits : CapacityLimits} (hvalid : RuleSetValid rules limits)
    (hd : d.Framed) (hout : far.action = .forward → (evaluateFar far packet).packet.Fits) :
    FrameKept d (v.account rules packet winner d far planned).decision := by
  unfold View.account
  cases hcited : citedUrr rules winner with
  | none => exact commit_framed v planned hd hout
  | some urr =>
    dsimp only
    have hid : urr.id.value ≠ 0 := bne_iff_ne.mp (hvalid.urrIds.valid urr (citedUrr_mem hcited).1)
    have hnamed := evaluateUrr_names urr (v.usage urr.id.value) packet.payloadBytes.toUInt64
      rules.sessionId rules.version
    generalize evaluateUrr urr (v.usage urr.id.value) packet.payloadBytes.toUInt64 rules.sessionId
      rules.version = usage at hnamed
    have hurr : PacketDecision.Framed { d with urr := usage.decision } :=
      { hd with urr := fun _ => hnamed ▸ hid }
    split
    · exact ⟨{ hurr with }, rfl⟩
    · split
      · exact ⟨{ hurr with }, rfl⟩
      · obtain ⟨hframed, hqer⟩ :=
          commit_framed v (View.countedEffect planned urr.id.value usage) hurr hout
        exact ⟨hframed, hqer⟩

/-- What a winner's packet brings to the FAR stage. -/
structure Resolvable (rules : RuleSet) (packet : Packet) (winner : Pdr) (far : Far) : Prop where
  resolves : findFar rules winner.farId = some far
  fits : FarFits winner far
  ingress : winner.sourceInterface = packet.ingress
  wellFormed : PacketWellFormed packet
  named : packet.Named

omit [InetText] in
/-- A dropped packet keeps its tunnel. -/
theorem Resolvable.after_valid (h : Resolvable rules packet winner far) :
    ∀ tunnel ∈ (evaluateFar far packet).packet.tunnel, tunnel.valid = true := by
  cases haction : far.action with
  | drop =>
    rw [evaluateFar, if_pos haction]
    exact h.wellFormed.tunnel_valid
  | forward => exact (h.fits.transformed h.ingress haction).tunnel_valid

theorem resolve_framed {limits : CapacityLimits} (hvalid : RuleSetValid rules limits)
    (htext : TextFits) (h : Resolvable rules packet winner far) (hd : d.Framed) :
    FrameKept d (v.resolve rules packet winner d far planned).decision := by
  have hid : far.id.value ≠ 0 :=
    bne_iff_ne.mp (hvalid.farIds.valid far (List.mem_of_find?_eq_some h.resolves))
  have hfar : PacketDecision.Framed { d with
      far := {
        applicable := true
        farId := far.id.value
        action := far.action
        destination := (evaluateFar far packet).destination
        before := packet.tunnel
        after := (evaluateFar far packet).packet.tunnel } } :=
    { hd with far := ⟨fun _ => hid, h.wellFormed.tunnel_valid, h.after_valid⟩ }
  obtain ⟨hframed, hqer⟩ := account_framed v planned hvalid hfar fun haction =>
    h.named.fits htext (h.fits.transformed h.ingress haction).same
      (h.fits.transformed h.ingress haction).tunnel_valid
  exact ⟨hframed, hqer⟩

/-- **The verdict for a winner** obeys the contract exactly when an open QER
it cites can be refilled. -/
theorem enforce_fits_iff {limits : CapacityLimits} (hvalid : RuleSetValid rules limits)
    (htext : TextFits) (h : Resolvable rules packet winner far) (hd : d.Framed)
    (hnone : d.qer.applicable = false) :
    (v.enforce rules packet winner d far).decision.Fits ↔
      ∀ qer, citedQer rules winner = some qer → qer.gate = .opened →
        QerRefills qer (v.tokens qer.id.value) packet.arrivalTimeMicros := by
  unfold View.enforce
  cases hcited : citedQer rules winner with
  | none =>
    have hstart : PacketDecision.Framed { d with
        qer := { d.qer with outcome := "NOT_APPLICABLE", allowed := true } } := { hd with }
    obtain ⟨hframed, hqer⟩ := resolve_framed v {} hvalid htext h hstart
    exact iff_of_true (hframed.fits (by rw [hqer]; exact hnone)) nofun
  | some qer =>
    dsimp only
    have hid : qer.id.value ≠ 0 := bne_iff_ne.mp (hvalid.qerIds.valid qer (citedQer_mem hcited).1)
    obtain ⟨happlicable, hnamed⟩ := evaluateQer_names qer (v.tokens qer.id.value)
      packet.payloadBytes.toUInt64 packet.arrivalTimeMicros
    have hlisted := evaluateQer_listed_iff qer (v.tokens qer.id.value) packet.payloadBytes.toUInt64
      packet.arrivalTimeMicros
    generalize evaluateQer qer (v.tokens qer.id.value) packet.payloadBytes.toUInt64
      packet.arrivalTimeMicros = evaluation at happlicable hnamed hlisted
    have hstart : PacketDecision.Framed { d with qer := evaluation.decision } :=
      { hd with qerId := fun _ => hnamed ▸ hid }
    have hends {d' : PacketDecision} (hkept : FrameKept { d with qer := evaluation.decision } d') :
        d'.Fits ↔ ∀ qer', some qer = some qer' → qer'.gate = .opened →
          QerRefills qer' (v.tokens qer'.id.value) packet.arrivalTimeMicros := by
      rw [hkept.framed.fits_iff, hkept.qer]
      constructor
      · intro houtcome qer' hqer'
        cases hqer'
        exact hlisted.mp (houtcome happlicable)
      · intro hrefills _
        exact hlisted.mpr (hrefills qer rfl)
    split
    · exact hends (resolve_framed v _ hvalid htext h hstart)
    · exact hends ⟨{ hstart with }, rfl⟩

end Stages

/-! ## The call -/

namespace PacketPipeline

section Call

variable [InetText] {p q : PacketPipeline} {rules : RuleSet} {packet : Packet}
  {d : PacketDecision} {runId scenarioId : String}

theorem WellFormed.header_framed (hwf : p.WellFormed) (hrules : p.rules = some rules)
    (packet : Packet) (runId scenarioId : String) : (p.header packet runId scenarioId).Framed where
  version := by
    rw [header, hrules]
    exact (hwf.valid rules hrules).version
  candidates := nofun
  qerId := nofun
  far := ⟨nofun, nofun, nofun⟩
  urr := nofun
  transformed := nofun

/-- The candidates of a verdict name PDRs of the ruleset and criteria of the
contract. -/
theorem candidates_fit (hwf : p.WellFormed) (hrules : p.rules = some rules)
    (hd : d.candidates = sortCandidates (selectPdr rules.pdrs packet).1) :
    ∀ c ∈ d.candidates, c.Fits := by
  intro c hc
  obtain ⟨pdr, hpdr, rfl⟩ := (mem_candidates hd).mp hc
  refine ⟨bne_iff_ne.mp ((hwf.valid rules hrules).pdrIds.valid pdr hpdr), fun item hitem => ?_⟩
  have hnames : (evaluateCandidate pdr packet).criteria.map (·.name) = criterionNames := rfl
  exact hnames ▸ List.mem_map_of_mem hitem

/-- **The verdict over a packet** obeys the contract exactly when an open QER
that its winner cites can be refilled. -/
theorem WellFormed.verdict_fits_iff (hwf : p.WellFormed) (hrules : p.rules = some rules)
    (htext : TextFits) (hnamed : packet.Named)
    (hroom : p.decisions.length < p.limits.results.toNat) :
    (p.verdict packet runId scenarioId).decision.Fits ↔
      ∀ winner far qer, Attempt p packet rules winner far → citedQer rules winner = some qer →
        qer.gate = .opened → QerRefills qer (p.tokensOf qer) packet.arrivalTimeMicros := by
  have hvalid := hwf.valid rules hrules
  have hheader := hwf.header_framed hrules packet runId scenarioId
  unfold verdict
  rw [hrules]
  dsimp only
  by_cases hbad : (!validPacket packet || packet.sessionId != rules.sessionId) = true
  · rw [if_pos hbad]
    have hfits : PacketDecision.Fits
        { p.header packet runId scenarioId with terminalResult := .malformedPacket } :=
      PacketDecision.Framed.fits { hheader with } rfl
    refine iff_of_true hfits fun winner far qer hat => ?_
    simp [hat.valid, hat.session] at hbad
  · rw [if_neg hbad]
    have hok : validPacket packet = true ∧ packet.sessionId = rules.sessionId := by simpa using hbad
    have htried : (p.triedDecision packet runId scenarioId rules).Framed :=
      { hheader with candidates := candidates_fit hwf hrules rfl }
    cases hwinner : (selectPdr rules.pdrs packet).2 with
    | none =>
      have hfits : PacketDecision.Fits
          { p.triedDecision packet runId scenarioId rules with terminalResult := .noMatch } :=
        PacketDecision.Framed.fits { htried with } rfl
      refine iff_of_true hfits fun winner far qer hat => ?_
      exact absurd hat.selects.matched
        ((selectPdr_eq_none_iff rules packet).mp hwinner winner hat.selects.mem)
    | some winner =>
      have hsel := (hvalid.selectPdr_winner packet winner).mp hwinner
      obtain ⟨far, hfar, hfits⟩ := (validatePdr_ok (hvalid.pdrOk winner hsel.mem)).far
      have hresolvable : Resolvable rules packet winner far :=
        ⟨hfar, hfits, hsel.matched.ingress, (validPacket_iff packet).mp hok.1, hnamed⟩
      have hstart : PacketDecision.Framed
          { p.triedDecision packet runId scenarioId rules with selectedPdrId := winner.id.value } :=
        { htried with }
      have hat : Attempt p packet rules winner far :=
        ⟨hroom, hrules, hok.1, hok.2, hsel, hfar, hfits.resolved hsel.matched.ingress⟩
      dsimp only
      rw [hfar, enforce_fits_iff p.view hvalid htext hresolvable hstart rfl]
      constructor
      · intro h winner' far' qer hat' hcited
        obtain ⟨-, rfl, -⟩ := hat.unique hwf hat'
        exact h qer hcited
      · intro h qer hcited
        exact h winner far qer hat hcited

theorem retain_fits_iff : (p.retain d).1.Fits ↔ d.Fits := by
  unfold retain
  split
  · exact Iff.rfl
  · exact ⟨fun h => { h with }, fun h => { h with }⟩

/-- An open QER that the winner of the packet cites can be refilled: the
clock has not gone back, and the tokens accrued fit the 64 bits. -/
def QerServes (e : PipelineEvent) : Prop :=
  ∀ packet runId scenarioId rules winner far qer, e.input = .process packet runId scenarioId →
    Attempt e.before packet rules winner far → citedQer rules winner = some qer →
      qer.gate = .opened → QerRefills qer (e.before.tokensOf qer) packet.arrivalTimeMicros

/-- **One packet.** -/
theorem WellFormed.decision_fits_iff (hwf : p.WellFormed) (hrules : p.rules = some rules)
    (htext : TextFits) (hnamed : packet.Named)
    (hprocess : p.process packet runId scenarioId = some (d, q)) :
    d.Fits ↔ QerServes ⟨p, .process packet runId scenarioId, .decided d, q⟩ := by
  have hserves : QerServes ⟨p, .process packet runId scenarioId, .decided d, q⟩ ↔
      ∀ winner far qer, Attempt p packet rules winner far → citedQer rules winner = some qer →
        qer.gate = .opened → QerRefills qer (p.tokensOf qer) packet.arrivalTimeMicros := by
    constructor
    · intro h winner far qer hat
      exact h packet runId scenarioId rules winner far qer rfl hat
    · intro h packet' _ _ rules' winner far qer hinput hat
      cases hinput
      cases hrules.symm.trans hat.installed
      exact h winner far qer hat
  rw [hserves]
  by_cases hroom : p.decisions.length < p.limits.results.toNat
  · rw [hwf.process_eq hroom] at hprocess
    have hd : (p.settle (p.verdict packet runId scenarioId)).1 = d :=
      congrArg Prod.fst (Option.some.inj hprocess)
    rw [← hd]
    exact retain_fits_iff.trans (hwf.verdict_fits_iff hrules htext hnamed hroom)
  · rw [process_of_full (Nat.not_lt.mp hroom)] at hprocess
    cases hprocess
    have hheader := hwf.header_framed hrules packet runId scenarioId
    have hfits : PacketDecision.Fits
        { p.header packet runId scenarioId with terminalResult := .capacityError } :=
      PacketDecision.Framed.fits { hheader with } rfl
    exact iff_of_true hfits fun winner far qer hat => absurd hat.room hroom

end Call

/-- Every event of a run over named packets. -/
theorem events_fit [InetText] {rules : RuleSet} (htext : TextFits) {runId scenarioId : String}
    {packets : List Packet} (hnamed : ∀ packet ∈ packets, packet.Named) {p p' : PacketPipeline}
    {es : List PipelineEvent} (hwf : p.WellFormed) (hrules : p.rules = some rules)
    (hrun : run exec p (packets.map (.process · runId scenarioId)) = some (es, p')) :
    ∀ e ∈ es, ∃ d, decided e = some d ∧ (d.Fits ↔ QerServes e) := by
  induction packets generalizing p es with
  | nil =>
    cases hrun
    exact fun e he => (by cases he)
  | cons packet rest ih =>
    obtain ⟨d, q, hprocess, hconfig, hexit⟩ := hwf.process_exit packet runId scenarioId
    rw [List.map_cons, run_cons _ _ _ (exec_process hprocess)] at hrun
    obtain ⟨⟨es', q'⟩, hrest, heq⟩ := Option.map_eq_some_iff.mp hrun
    cases heq
    obtain ⟨hfirst, hothers⟩ := List.forall_mem_cons.mp hnamed
    refine List.forall_mem_cons.mpr ⟨⟨d, rfl, hwf.decision_fits_iff hrules htext hfirst hprocess⟩, ?_⟩
    exact ih hothers (hwf.of_exit hconfig hexit) (hconfig.rules.trans hrules) hrest

end PacketPipeline

/-! ## The two files -/

section Files

variable [InetText] [InetPton] [FloatCast] [ArgumentOrder] {files : String → FileContent}
  {rulesPath packetsPath : String}

omit [InetText] in
/-- The names of a packet are texts of its document. -/
theorem parsePacket_names {item : Json} {packet : Packet} (h : parsePacket item = .value packet) :
    item.member? "packetId" = some (.string packet.packetId) ∧
      item.member? "sessionId" = some (.string packet.sessionId) := by
  unfold parsePacket at h
  simp only [Outcome.bind_eq_value] at h
  obtain ⟨v, hv, packetId, hid, w, hw, sessionId, hsession, u, -, tunnel, -, s, -, source, -, t, -,
    destination, -, h⟩ := h
  cases Json.getString_eq_value hid
  cases Json.getString_eq_value hsession
  split at h
  · simp only [Outcome.bind_eq_value] at h
    obtain ⟨p, -, h⟩ := h
    split at h
    · simp only [Outcome.bind_eq_value] at h
      obtain ⟨_, -, sourcePort, -, _, -, destinationPort, -, _, -, payload, -, _, -, time, -, h⟩ := h
      cases h
      exact ⟨Json.atKey_eq_value hv, Json.atKey_eq_value hw⟩
    · cases h
  · cases h

omit [InetText] in
/-- The packets of a document that obeys the packets contract are named by
IDs. -/
theorem named_of_contract {packetsJson : Json} {packets : List Packet}
    (hcontract : Contracts.packets packetsJson = true)
    (hparse : parsePackets packetsJson = .value packets) : ∀ packet ∈ packets, packet.Named := by
  obtain ⟨v, hv, hread⟩ := Outcome.bind_eq_value.mp (Outcome.rescue_eq_value.mp hparse)
  obtain ⟨items, hitems, heach⟩ := Outcome.bind_eq_value.mp hread
  have hlist : allOf [typed [.array], minItems 1, Schema.items Contracts.packet] v = true :=
    record_member hcontract (by simp) (Json.atKey_eq_value hv)
  have hall : ∀ item ∈ items, Contracts.packet item = true := by
    simp only [allOf_iff, List.forall_mem_cons] at hlist
    obtain ⟨harray, -, hitem, -⟩ := hlist
    cases v with
    | array elements =>
      cases hitems
      exact List.all_eq_true.mp hitem
    | null | boolean | integer | unsigned | float | string | object => cases harray
  have hparsed := Outcome.each_eq_value heach
  clear hparse hread hitems heach
  induction hparsed with
  | nil =>
    intro packet hpacket
    cases hpacket
  | @cons item packet _ _ hitem _ ih =>
    obtain ⟨hfirst, hrest⟩ := List.forall_mem_cons.mp hall
    obtain ⟨hid, hsession⟩ := parsePacket_names hitem
    exact List.forall_mem_cons.mpr
      ⟨⟨record_member hfirst (by simp) hid, record_member hfirst (by simp) hsession⟩, ih hrest⟩

/-- The packets of a run are those of its document. -/
theorem packets_of_fileRun {r : FileRun} {packetsJson : Json}
    (hpackets : files packetsPath = .document packetsJson)
    (h : fileRun files rulesPath packetsPath = .value r) :
    parsePackets packetsJson = .value r.packets := by
  unfold fileRun at h
  simp only [Outcome.bind_eq_value, Outcome.ofExcept_eq_value, readJson, hpackets] at h
  obtain ⟨_, -, _, hread, rulesJson, -, packetsJson', hdocument, _, -, _, hparse, rules, -, packets,
    hok, _, -, runId, -, scenarioId, -, h⟩ := h
  cases hread
  cases hdocument
  cases hok
  split at h
  · cases h
  · cases h
    exact Outcome.result_eq_ok.mp hparse

/-- The decisions of a rendered result obey the contract. -/
def DecisionsConform (document : Json) : Prop :=
  ∃ decisions, document.member? "decisions" = some (.array decisions) ∧
    ∀ d ∈ decisions, Contracts.decision d = true

omit [InetPton] [FloatCast] [ArgumentOrder] in
theorem renderJson_conforms_iff (result : RunResult) :
    DecisionsConform (renderJson result) ↔ ∀ d ∈ result.decisions, d.Fits := by
  have hmember : (renderJson result).member? "decisions"
      = some (.array (result.decisions.map decisionJson)) := rfl
  rw [DecisionsConform, hmember]
  simp only [Option.some.injEq, Json.array.injEq, exists_eq_left', List.forall_mem_map, decision_iff]

/-- **Rendered decisions obey the published contract** exactly when every
open QER that a packet's winner cites can be refilled for it. -/
theorem decisions_conform_iff (htext : TextFits) {packetsJson : Json}
    (hpackets : files packetsPath = .document packetsJson)
    (hcontract : Contracts.packets packetsJson = true) {result : RunResult}
    (h : runFiles files rulesPath packetsPath = .value result) :
    ∃ r es, fileRun files rulesPath packetsPath = .value r ∧ r.result = result ∧
      run PacketPipeline.exec r.installed
        (r.packets.map (.process · result.runId result.scenarioId)) = some (es, r.pipeline) ∧
      (DecisionsConform (renderJson result) ↔ ∀ e ∈ es, PacketPipeline.QerServes e) := by
  obtain ⟨r, hfile, rfl⟩ := Outcome.map_eq_value.mp h
  have hmade := made_of_fileRun hfile
  obtain ⟨es, hrun, hdecisions⟩ := PacketPipeline.run_of_processAll hmade.processed
  have hfirst := PacketPipeline.firstRun_install hmade.accepted
  rw [← hmade.installed] at hfirst
  have hnamed := named_of_contract hcontract (packets_of_fileRun hpackets hfile)
  have hevents := PacketPipeline.events_fit htext hnamed hfirst.wellFormed hfirst.installed hrun
  refine ⟨r, es, hfile, rfl, hrun, ?_⟩
  rw [renderJson_conforms_iff, hdecisions]
  constructor
  · intro hfits e he
    obtain ⟨d, hd, hiff⟩ := hevents e he
    exact hiff.mp (hfits d (List.mem_filterMap.mpr ⟨e, he, hd⟩))
  · intro hserves d hd
    obtain ⟨e, he, hdecided⟩ := List.mem_filterMap.mp hd
    obtain ⟨d', hd', hiff⟩ := hevents e he
    cases hd'.symm.trans hdecided
    exact hiff.mpr (hserves e he)

end Files

/-! ## A run that conforms, and one by the wall clock -/

theorem natText_ascii (n : Nat) : ∀ c ∈ (toString n).toList, c.toNat < 0x80 := by
  intro c hc
  rw [Nat.toString_eq_ofList_toDigits, String.toList_ofList] at hc
  have hdigit := Nat.isDigit_of_mem_toDigits (by decide) (by decide) hc
  have hle : c.val ≤ '9'.val := by
    simp only [Char.isDigit, Bool.and_eq_true, decide_eq_true_eq] at hdigit
    exact hdigit.2
  exact Nat.lt_of_le_of_lt (UInt32.le_iff_toNat_le.mp hle) (by decide)

/-- A byte is written with one to three digits. -/
theorem byteText_length (b : UInt8) :
    1 ≤ (toString b.toNat).length ∧ (toString b.toNat).length ≤ 3 := by
  rw [Nat.toString_eq_ofList_toDigits, String.length_ofList]
  have hbyte : b.toNat < 10 ^ 3 := Nat.lt_trans b.toNat_lt (by decide)
  exact ⟨Nat.length_toDigits_pos, (Nat.length_toDigits_le_iff (by decide) (by decide)).mpr hbyte⟩

theorem dottedText_eq (family : AddressFamily) (bytes : Vector UInt8 16) :
    ∃ a b c d : UInt8, PacketPipeline.dottedText.ntop family bytes
      = toString a.toNat ++ "." ++ (toString b.toNat ++ "." ++ (toString c.toNat ++ "." ++
        toString d.toNat)) := by
  obtain ⟨a, b, c, d, hbytes⟩ : ∃ a b c d, bytes.toList.take 4 = [a, b, c, d] :=
    List.length_eq_four.mp (by simp)
  have htext : PacketPipeline.dottedText.ntop family bytes
      = String.intercalate "." ((bytes.toList.take 4).map fun b => toString b.toNat) := rfl
  refine ⟨a, b, c, d, ?_⟩
  rw [htext, hbytes]
  simp only [List.map_cons, List.map_nil, String.intercalate_cons_cons,
    String.intercalate_singleton]

theorem dottedText_fits : @TextFits PacketPipeline.dottedText := by
  have hdot : ".".length = 1 := rfl
  refine @TextFits.mk PacketPipeline.dottedText ?_ ?_ ?_
  · intro family bytes
    obtain ⟨a, b, c, d, htext⟩ := dottedText_eq family bytes
    have hseparator : ∀ c ∈ ".".toList, c.toNat < 0x80 := by simp
    rw [htext]
    simp only [String.toList_append, List.forall_mem_append]
    exact ⟨⟨natText_ascii a.toNat, hseparator⟩, ⟨natText_ascii b.toNat, hseparator⟩,
      ⟨natText_ascii c.toNat, hseparator⟩, natText_ascii d.toNat⟩
  · intro family bytes
    obtain ⟨a, b, c, d, htext⟩ := dottedText_eq family bytes
    have ha := (byteText_length a).1
    rw [htext]
    simp only [String.length_append, hdot]
    omega
  · intro family bytes
    obtain ⟨a, b, c, d, htext⟩ := dottedText_eq family bytes
    have ha := (byteText_length a).2
    have hb := (byteText_length b).2
    have hc := (byteText_length c).2
    have hd := (byteText_length d).2
    rw [htext]
    simp only [String.length_append, hdot]
    omega

/-- A FAR and a QER with these members. -/
def rulesWithQer (qer : List (String × Json)) : Json :=
  .object [
    ("schemaVersion", .string "1.0"), ("sessionId", .string "session-1"),
    ("rulesetVersion", .unsigned 3),
    ("limits", .object (Contracts.limitNames.map fun name => (name, .unsigned 16))),
    ("pdrs", .array [.object [
      ("id", .unsigned 10), ("precedence", .unsigned 100), ("sourceInterface", .string "N3"),
      ("teid", .unsigned 1001), ("uePrefix", .string "10.10.0.0/16"), ("farId", .unsigned 20),
      ("qerId", .unsigned 30)]]),
    ("fars", .array [.object [
      ("id", .unsigned 20), ("action", .string "FORWARD"), ("destinationInterface", .string "N6"),
      ("tunnelOperation", .string "REMOVE")]]),
    ("qers", .array [.object qer]),
    ("urrs", .array [])]

/-- An open QER of 100 Mbit/s. -/
def openQer : List (String × Json) :=
  [("id", .unsigned 30), ("gate", .string "OPEN"), ("rateBitsPerSecond", .unsigned 100000000),
    ("burstBytes", .unsigned 1500), ("generation", .unsigned 1)]

def meteredRules : Json := rulesWithQer openQer

/-- Uplink packets at these times. -/
def packetsAt (times : List UInt64) : Json :=
  .object [
    ("schemaVersion", .string "1.0"), ("runId", .string "run-1"),
    ("scenarioId", .string "wall-clock"),
    ("packets", .array (times.map fun time => .object [
      ("packetId", .string "pkt-ul-001"), ("sessionId", .string "session-1"),
      ("ingress", .string "N3"),
      ("tunnel", .object [("teid", .unsigned 1001), ("qfi", .unsigned 9)]),
      ("sourceIp", .string "10.10.0.7"), ("destinationIp", .string "192.0.2.20"),
      ("protocol", .string "UDP"), ("sourcePort", .unsigned 41000),
      ("destinationPort", .unsigned 443), ("payloadBytes", .unsigned 1200),
      ("arrivalTimeMicros", .unsigned time)]))]

/-- Three packets, of which the second finds too few tokens. -/
def promptPackets : Json := packetsAt [1, 2, 100]

/-- One packet whose arrival counts from 1970. -/
def wallClockPackets : Json := packetsAt [1700000000000000]

theorem meteredRules_conforms : Contracts.rules meteredRules = true := by decide +kernel

theorem promptPackets_conforms : Contracts.packets promptPackets = true := by decide +kernel

theorem wallClockPackets_conforms : Contracts.packets wallClockPackets = true := by decide +kernel

theorem promptRun_isSome : (runOf meteredRules promptPackets).toOption.isSome = true := by
  decide +kernel

theorem wallClockRun_isSome : (runOf meteredRules wallClockPackets).toOption.isSome = true := by
  decide +kernel

theorem decisions_conform_prompt :
    ∃ r es, runOf meteredRules promptPackets = .value r ∧
      r.result.decisions.map (·.qer.outcome) = ["ALLOW", "RATE_LIMITED", "ALLOW"] ∧
      run (@PacketPipeline.exec PacketPipeline.dottedText) r.installed
        (r.packets.map (.process · r.result.runId r.result.scenarioId)) = some (es, r.pipeline) ∧
      DecisionsConform (@renderJson PacketPipeline.dottedText r.result) ∧
      ∀ e ∈ es, PacketPipeline.QerServes e := by
  have houtcomes : ((runOf meteredRules promptPackets).toOption.get
      promptRun_isSome).result.decisions.map (·.qer.outcome) = ["ALLOW", "RATE_LIMITED", "ALLOW"] := by
    decide +kernel
  have hdecisions : ∀ d ∈ ((runOf meteredRules promptPackets).toOption.get
      promptRun_isSome).result.decisions,
      Contracts.decision (@decisionJson PacketPipeline.dottedText d) = true := by decide +kernel
  obtain ⟨r, es, hfile, hresult, hrun, hiff⟩ :=
    @decisions_conform_iff PacketPipeline.dottedText dottedPton noFloats secondFirst
      (twoFiles meteredRules promptPackets) "rules.json" "packets.json" dottedText_fits
      promptPackets rfl promptPackets_conforms _ (runFiles_runOf promptRun_isSome)
  rw [← hresult] at houtcomes hdecisions hrun hiff
  have hconform : DecisionsConform (@renderJson PacketPipeline.dottedText r.result) :=
    ⟨_, rfl, List.forall_mem_map.mpr hdecisions⟩
  exact ⟨r, es, hfile, houtcomes, hrun, hconform, hiff.mp hconform⟩

/-- A refill since 1970 does not fit 64 bits: the outcome of the QER is one
the contract does not list. -/
theorem arithmetic_error_unlisted :
    ¬ ∀ (files : String → FileContent) (rulesPath packetsPath : String) (rules packets : Json)
        (result : RunResult), files rulesPath = .document rules → Contracts.rules rules = true →
      files packetsPath = .document packets → Contracts.packets packets = true →
      @runFiles noFloats dottedPton secondFirst PacketPipeline.dottedText files rulesPath
        packetsPath = .value result →
      DecisionsConform (@renderJson PacketPipeline.dottedText result) := by
  intro h
  have hconforms := h (twoFiles meteredRules wallClockPackets) "rules.json" "packets.json" _ _ _ rfl
    meteredRules_conforms rfl wallClockPackets_conforms (runFiles_runOf wallClockRun_isSome)
  have hrefused : ∃ d ∈ ((runOf meteredRules wallClockPackets).toOption.get
      wallClockRun_isSome).result.decisions,
      d.qer.applicable = true ∧ d.qer.outcome = "ARITHMETIC_ERROR" := by
    decide +kernel
  obtain ⟨d, hd, happlicable, houtcome⟩ := hrefused
  have hfits := (@renderJson_conforms_iff PacketPipeline.dottedText _).mp hconforms d hd
  have hlisted := (@PacketDecision.Fits.qer PacketPipeline.dottedText d hfits).outcome happlicable
  rw [houtcome] at hlisted
  exact absurd hlisted (by decide)

end UpfPolicy
