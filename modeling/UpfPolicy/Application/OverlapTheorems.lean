/-
UpfPolicy.Application.OverlapTheorems — the overlap test of the validation
is exact.

`matchSpacesOverlap_of_matches` says that two PDRs with a common packet
overlap. The converse builds that packet: the network of the longer prefix
is the UE address, the larger of the two lower bounds is the port, and the
TEID and the QFI are those the PDRs ask for. What makes the packet well
formed is that each PDR is matched by some well-formed packet
(`Satisfiable`): the values a PDR asks for are then valid ones.
-/
import UpfPolicy.Application.ProcessTheorems

namespace UpfPolicy

/-! ## One field at a time -/

/-- Of two nested prefixes the network of the longer one is in both. -/
theorem IpPrefix.exists_common {p q : IpPrefix}
    (h : p.contains q.network = true ∨ q.contains p.network = true) :
    ∃ address, p.contains address = true ∧ q.contains address = true := by
  rcases h with h | h
  · exact ⟨q.network, h, q.contains_network⟩
  · exact ⟨p.network, p.contains_network, h⟩

/-- Two optional values that overlap have one value that serves both, and it
keeps what is known of each of them. -/
theorem exists_common_value {α : Type} [DecidableEq α] {P : α → Prop} {a b : Option α}
    (hoverlap : optionalValuesOverlap a b = true) (fallback : α) (hfallback : P fallback)
    (ha : ∀ x, a = some x → P x) (hb : ∀ x, b = some x → P x) :
    ∃ v, P v ∧ (∀ x, a = some x → v = x) ∧ (∀ x, b = some x → v = x) := by
  rw [optionalValuesOverlap_eq_true] at hoverlap
  cases a with
  | some x =>
    refine ⟨x, ha x rfl, fun y hy => Option.some.inj hy, fun y hy => hoverlap x y rfl hy⟩
  | none =>
    cases b with
    | some y => exact ⟨y, hb y rfl, fun x hx => (by cases hx), fun x hx => Option.some.inj hx⟩
    | none => exact ⟨fallback, hfallback, fun x hx => (by cases hx), fun x hx => (by cases hx)⟩

theorem PortRange.contains_iff (r : PortRange) (port : UInt16) :
    r.contains port = true ↔ r.first ≤ r.last ∧ r.first ≤ port ∧ port ≤ r.last := by
  simp only [PortRange.contains, PortRange.valid, Bool.and_eq_true, decide_eq_true_eq, ge_iff_le,
    and_assoc]

/-- Two ranges that overlap share the larger of their lower bounds. -/
theorem PortRange.exists_common {r s : PortRange} (hr : r.first ≤ r.last) (hs : s.first ≤ s.last)
    (h : r.first ≤ s.last ∧ s.first ≤ r.last) :
    ∃ port, r.contains port = true ∧ s.contains port = true := by
  simp only [PortRange.contains_iff]
  rcases UInt16.le_total r.first s.first with hle | hle
  · exact ⟨s.first, ⟨hr, hle, h.2⟩, ⟨hs, UInt16.le_refl _, hs⟩⟩
  · exact ⟨r.first, ⟨hr, UInt16.le_refl _, hr⟩, ⟨hs, hle, h.1⟩⟩

theorem exists_common_port {a b : Option PortRange} (hoverlap : rangesOverlap a b = true)
    (ha : ∀ r, a = some r → r.first ≤ r.last) (hb : ∀ r, b = some r → r.first ≤ r.last) :
    ∃ port, (∀ r, a = some r → r.contains port = true) ∧
      (∀ r, b = some r → r.contains port = true) := by
  have hself : ∀ r : PortRange, r.first ≤ r.last → r.contains r.first = true := by
    intro r hr
    exact (r.contains_iff r.first).mpr ⟨hr, UInt16.le_refl _, hr⟩
  rw [rangesOverlap_eq_true] at hoverlap
  cases a with
  | none =>
    cases b with
    | none => exact ⟨0, fun r hr => (by cases hr), fun r hr => (by cases hr)⟩
    | some s =>
      refine ⟨s.first, fun r hr => (by cases hr), fun r hr => ?_⟩
      cases hr
      exact hself s (hb s rfl)
  | some r =>
    cases b with
    | none =>
      refine ⟨r.first, fun s hs => ?_, fun s hs => (by cases hs)⟩
      cases hs
      exact hself r (ha r rfl)
    | some s =>
      obtain ⟨port, hr, hs⟩ := PortRange.exists_common (ha r rfl) (hb s rfl) (hoverlap r s rfl rfl)
      exact ⟨port, fun x hx => Option.some.inj hx ▸ hr, fun x hx => Option.some.inj hx ▸ hs⟩

/-! ## Well-formed packets -/

/-- `validPacket`, as the facts it checks. -/
structure PacketWellFormed (packet : Packet) : Prop where
  packetId : packet.packetId ≠ ""
  sessionId : packet.sessionId ≠ ""
  family : packet.sourceIp.family = packet.destinationIp.family
  tunnelN3 : packet.ingress = .n3 → ∃ t, packet.tunnel = some t ∧ t.valid = true
  tunnelN6 : packet.ingress = .n6 → packet.tunnel = none

theorem validPacket_iff (packet : Packet) :
    PacketPipeline.validPacket packet = true ↔ PacketWellFormed packet := by
  have hid : ∀ s : String, s.isEmpty = true ↔ s = "" := fun s => String.isEmpty_iff
  unfold PacketPipeline.validPacket
  constructor
  · intro h
    split at h
    · cases h
    · rename_i hids
      rw [Bool.or_eq_true, hid, hid, not_or] at hids
      split at h
      · cases h
      · rename_i hfamily
        split at h
        · rename_i hn3
          refine ⟨hids.1, hids.2, not_not.mp hfamily, fun _ => ?_, fun hn6 => ?_⟩
          · exact (Option.any_eq_true _ _).mp h
          · rw [hn3] at hn6
            cases hn6
        · rename_i hn3
          refine ⟨hids.1, hids.2, not_not.mp hfamily, fun h' => absurd h' hn3, fun _ => ?_⟩
          exact Option.isNone_iff_eq_none.mp h
  · intro h
    rw [if_neg (by rw [Bool.or_eq_true, hid, hid, not_or]; exact ⟨h.packetId, h.sessionId⟩),
      if_neg (not_not.mpr h.family)]
    cases hside : packet.ingress with
    | n3 =>
      obtain ⟨t, ht, hvalid⟩ := h.tunnelN3 hside
      rw [if_pos rfl, ht]
      exact hvalid
    | n6 =>
      rw [if_neg (by decide), h.tunnelN6 hside]
      rfl

theorem TunnelMetadata.valid_iff (t : TunnelMetadata) :
    t.valid = true ↔ t.teid ≠ 0 ∧ 1 ≤ t.qfi ∧ t.qfi ≤ 63 := by
  simp only [TunnelMetadata.valid, Bool.and_eq_true, bne_iff_ne, decide_eq_true_eq, ge_iff_le,
    and_assoc]

/-- What a PDR asks for can be had from a well-formed packet. -/
structure Satisfiable (pdr : Pdr) : Prop where
  teid : pdr.sourceInterface = .n3 → ∀ teid, pdr.teid = some teid → teid ≠ 0
  qfi : pdr.sourceInterface = .n3 → ∀ qfi, pdr.qfi = some qfi → 1 ≤ qfi ∧ qfi ≤ 63
  noTunnel : pdr.sourceInterface = .n6 → pdr.teid = none ∧ pdr.qfi = none
  localPorts : ∀ r, pdr.localPorts = some r → r.first ≤ r.last
  remotePorts : ∀ r, pdr.remotePorts = some r → r.first ≤ r.last

theorem PdrMatches.satisfiable {pdr : Pdr} {packet : Packet} (h : PdrMatches pdr packet)
    (hpacket : PacketWellFormed packet) : Satisfiable pdr := by
  have hvalid : pdr.sourceInterface = .n3 → ∀ t, packet.tunnel = some t →
      t.teid ≠ 0 ∧ 1 ≤ t.qfi ∧ t.qfi ≤ 63 := by
    intro hn3 t ht
    obtain ⟨t', ht', hv⟩ := hpacket.tunnelN3 (h.ingress ▸ hn3)
    rw [ht] at ht'
    cases ht'
    exact t.valid_iff.mp hv
  have hnone : ∀ {α : Type} (o : Option α), (∀ x, o = some x → ∃ t, packet.tunnel = some t) →
      packet.tunnel = none → o = none := by
    intro α o ho ht
    cases o with
    | none => rfl
    | some x =>
      obtain ⟨t, hsome⟩ := ho x rfl
      rw [ht] at hsome
      cases hsome
  constructor
  · intro hn3 teid hteid
    obtain ⟨t, ht, rfl⟩ := h.tunnel teid hteid
    exact (hvalid hn3 t ht).1
  · intro hn3 qfi hqfi
    obtain ⟨t, ht, rfl⟩ := h.qfi qfi hqfi
    exact (hvalid hn3 t ht).2
  · intro hn6
    have ht := hpacket.tunnelN6 (h.ingress ▸ hn6)
    refine ⟨hnone _ (fun x hx => ?_) ht, hnone _ (fun x hx => ?_) ht⟩
    · obtain ⟨t, ht, -⟩ := h.tunnel x hx
      exact ⟨t, ht⟩
    · obtain ⟨t, ht, -⟩ := h.qfi x hx
      exact ⟨t, ht⟩
  · intro r hr
    exact ((r.contains_iff _).mp (h.localPorts r hr)).1
  · intro r hr
    exact ((r.contains_iff _).mp (h.remotePorts r hr)).1

/-! ## The common packet -/

/-- A packet with the given match fields, the UE and its peer at one
address. -/
def commonPacket (ingress : Interface) (tunnel : Option TunnelMetadata) (address : IpAddress)
    (protocol : TransportProtocol) (localPort remotePort : UInt16) : Packet where
  packetId := "packet"
  sessionId := "session"
  ingress := ingress
  tunnel := tunnel
  sourceIp := address
  destinationIp := address
  protocol := protocol
  sourcePort := if ingress = .n3 then localPort else remotePort
  destinationPort := if ingress = .n3 then remotePort else localPort
  payloadBytes := 0
  arrivalTimeMicros := 0

/-- The fields of `commonPacket`, as the matcher reads them. -/
structure CommonFields (packet : Packet) (address : IpAddress) (localPort remotePort : UInt16) :
    Prop where
  ueIp : packet.ueIp = address
  localPort : packet.localPort = localPort
  remotePort : packet.remotePort = remotePort

theorem commonPacket_fields (ingress : Interface) (tunnel : Option TunnelMetadata)
    (address : IpAddress) (protocol : TransportProtocol) (localPort remotePort : UInt16) :
    CommonFields (commonPacket ingress tunnel address protocol localPort remotePort) address
      localPort remotePort := by
  cases ingress with
  | n3 => exact ⟨rfl, rfl, rfl⟩
  | n6 => exact ⟨rfl, rfl, rfl⟩

/-- The tunnel of the common packet: the TEID and the QFI either PDR asks
for on N3, and none on N6. -/
theorem exists_common_tunnel {a b : Pdr} (hside : a.sourceInterface = b.sourceInterface)
    (hteid : optionalValuesOverlap a.teid b.teid = true)
    (hqfi : optionalValuesOverlap a.qfi b.qfi = true) (ha : Satisfiable a) (hb : Satisfiable b) :
    ∃ tunnel : Option TunnelMetadata,
      (a.sourceInterface = .n3 → ∃ t, tunnel = some t ∧ t.valid = true) ∧
      (a.sourceInterface = .n6 → tunnel = none) ∧
      ∀ pdr, pdr = a ∨ pdr = b →
        (∀ teid, pdr.teid = some teid → ∃ t, tunnel = some t ∧ t.teid = teid) ∧
        (∀ qfi, pdr.qfi = some qfi → ∃ t, tunnel = some t ∧ t.qfi = qfi) := by
  cases hn : a.sourceInterface with
  | n3 =>
    have hn' : b.sourceInterface = .n3 := hside ▸ hn
    obtain ⟨teid, hteid0, hteida, hteidb⟩ := exists_common_value (P := fun x => x ≠ 0) hteid 1
      (by decide) (ha.teid hn) (hb.teid hn')
    obtain ⟨qfi, hqfiRange, hqfia, hqfib⟩ := exists_common_value
      (P := fun x => 1 ≤ x ∧ x ≤ 63) hqfi 1 (by decide)
      (ha.qfi hn) (hb.qfi hn')
    refine ⟨some ⟨teid, qfi⟩, fun _ => ⟨_, rfl, ?_⟩, fun h => (by cases h), ?_⟩
    · exact (TunnelMetadata.valid_iff _).mpr ⟨hteid0, hqfiRange⟩
    · rintro pdr (rfl | rfl)
      · exact ⟨fun x hx => ⟨_, rfl, hteida x hx⟩, fun x hx => ⟨_, rfl, hqfia x hx⟩⟩
      · exact ⟨fun x hx => ⟨_, rfl, hteidb x hx⟩, fun x hx => ⟨_, rfl, hqfib x hx⟩⟩
  | n6 =>
    have hna := ha.noTunnel hn
    have hnb := hb.noTunnel (hside ▸ hn)
    refine ⟨none, fun h => (by cases h), fun _ => rfl, ?_⟩
    rintro pdr (rfl | rfl)
    · rw [hna.1, hna.2]
      exact ⟨fun x hx => (by cases hx), fun x hx => (by cases hx)⟩
    · rw [hnb.1, hnb.2]
      exact ⟨fun x hx => (by cases hx), fun x hx => (by cases hx)⟩

/-- **The overlap test is complete**: PDRs that overlap and can be matched at
all are matched by one packet. -/
theorem exists_common_packet {a b : Pdr} (h : matchSpacesOverlap a b = true)
    (ha : Satisfiable a) (hb : Satisfiable b) :
    ∃ packet, PacketWellFormed packet ∧ PdrMatches a packet ∧ PdrMatches b packet := by
  simp only [matchSpacesOverlap, Bool.and_eq_true, Bool.or_eq_true, decide_eq_true_eq] at h
  obtain ⟨⟨⟨⟨⟨⟨hside, hteid⟩, hnested⟩, hprotocol⟩, hlocal⟩, hremote⟩, hqfi⟩ := h
  obtain ⟨tunnel, htunnelN3, htunnelN6, htunnel⟩ := exists_common_tunnel hside hteid hqfi ha hb
  obtain ⟨address, haddressA, haddressB⟩ := IpPrefix.exists_common hnested
  obtain ⟨protocol, -, hprotocolA, hprotocolB⟩ := exists_common_value (P := fun _ => True)
    hprotocol .tcp trivial (fun _ _ => trivial) (fun _ _ => trivial)
  obtain ⟨localPort, hlocalA, hlocalB⟩ := exists_common_port hlocal ha.localPorts hb.localPorts
  obtain ⟨remotePort, hremoteA, hremoteB⟩ :=
    exists_common_port hremote ha.remotePorts hb.remotePorts
  have hfields := commonPacket_fields a.sourceInterface tunnel address protocol localPort remotePort
  refine ⟨commonPacket a.sourceInterface tunnel address protocol localPort remotePort, ?_, ?_, ?_⟩
  · exact ⟨(by decide : ("packet" : String) ≠ ""), (by decide : ("session" : String) ≠ ""), rfl,
      htunnelN3, htunnelN6⟩
  · have hta := htunnel a (Or.inl rfl)
    exact ⟨rfl, hta.1, by rw [hfields.ueIp]; exact haddressA, fun p hp => (hprotocolA p hp).symm,
      by rw [hfields.localPort]; exact hlocalA, by rw [hfields.remotePort]; exact hremoteA, hta.2⟩
  · have htb := htunnel b (Or.inr rfl)
    exact ⟨hside.symm, htb.1, by rw [hfields.ueIp]; exact haddressB,
      fun p hp => (hprotocolB p hp).symm, by rw [hfields.localPort]; exact hlocalB,
      by rw [hfields.remotePort]; exact hremoteB, htb.2⟩

/-- **The overlap test is exact.** -/
theorem matchSpacesOverlap_exact [InetText] {a b : Pdr}
    (ha : ∃ packet, PacketPipeline.validPacket packet = true ∧
      (evaluateCandidate a packet).matched = true)
    (hb : ∃ packet, PacketPipeline.validPacket packet = true ∧
      (evaluateCandidate b packet).matched = true) :
    matchSpacesOverlap a b = true ↔
      ∃ packet, PacketPipeline.validPacket packet = true ∧
        (evaluateCandidate a packet).matched = true ∧
        (evaluateCandidate b packet).matched = true := by
  simp only [validPacket_iff, evaluateCandidate_matched_iff] at ha hb ⊢
  constructor
  · intro h
    obtain ⟨packetA, hwellA, hmatchA⟩ := ha
    obtain ⟨packetB, hwellB, hmatchB⟩ := hb
    exact exists_common_packet h (hmatchA.satisfiable hwellA) (hmatchB.satisfiable hwellB)
  · rintro ⟨packet, -, hmatchA, hmatchB⟩
    exact matchSpacesOverlap_of_matches hmatchA hmatchB

/-- One PDR for a TEID and one for a QFI, both matched by the uplink packet of
the tests. -/
theorem matchSpacesOverlap_exact_uplink :
    let a : Pdr := { teid := some 1001 }
    let b : Pdr := { qfi := some 9 }
    ((∃ packet, PacketPipeline.validPacket packet = true ∧
      (@evaluateCandidate PacketPipeline.dottedText a packet).matched = true) ∧
    ∃ packet, PacketPipeline.validPacket packet = true ∧
      (@evaluateCandidate PacketPipeline.dottedText b packet).matched = true) ∧
    (matchSpacesOverlap a b = true ↔
      ∃ packet, PacketPipeline.validPacket packet = true ∧
        (@evaluateCandidate PacketPipeline.dottedText a packet).matched = true ∧
        (@evaluateCandidate PacketPipeline.dottedText b packet).matched = true) := by
  intro a b
  have ha : (@evaluateCandidate PacketPipeline.dottedText a PacketPipeline.uplinkPacket).matched
      = true := by decide +kernel
  have hb : (@evaluateCandidate PacketPipeline.dottedText b PacketPipeline.uplinkPacket).matched
      = true := by decide +kernel
  have hvalid : PacketPipeline.validPacket PacketPipeline.uplinkPacket = true := by decide +kernel
  exact ⟨⟨⟨_, hvalid, ha⟩, ⟨_, hvalid, hb⟩⟩,
    @matchSpacesOverlap_exact PacketPipeline.dottedText a b ⟨_, hvalid, ha⟩ ⟨_, hvalid, hb⟩⟩

end UpfPolicy
