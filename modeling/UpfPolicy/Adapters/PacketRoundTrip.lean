/-
UpfPolicy.Adapters.PacketRoundTrip — rendered packets are read back.

The encoder is in `json_output.cpp`, the decoder in `json_input.cpp`; they
meet in `PacketFaithful`, what an element of `packets` states. A rendered
packet states itself (`packetJson_faithful`), an element states at most one
packet (`packetFaithful_unique`), and a reader returns what its document
states (`Reads.eq_value`).

What the C library contributes is one assumption per address
(`IpAddress.TextReadsBack`): `inet_pton` reads the text `inet_ntop` writes.
-/
import Mathlib.Data.List.Forall2
import UpfPolicy.Adapters.DecodingTheorems

namespace UpfPolicy

open Support Relator

/-! ## Addresses -/

/-- The bytes of an IPv4 address. -/
def IpAddress.ipv4Bytes (a : IpAddress) : Vector UInt8 4 :=
  .ofFn fun i => a.bytes.get (i.castLE (by decide))

/-- `inet_pton` reads the text that `inet_ntop` writes for the address, and
does not take an IPv6 text for an IPv4 one. -/
structure IpAddress.TextReadsBack [InetText] [InetPton] (a : IpAddress) : Prop where
  /-- A text of the C library ends before its null character. -/
  terminated : '\x00' ∉ a.toString.toList
  ipv4 : a.family = .ipv4 → InetPton.pton4 a.toString = some a.ipv4Bytes
  ipv6 : a.family = .ipv6 →
    InetPton.pton4 a.toString = none ∧ InetPton.pton6 a.toString = some a.bytes

/-- Over zeros, the bytes of an IPv4 address are the address. -/
theorem IpAddress.ofIpv4_ipv4Bytes {a : IpAddress} (hfamily : a.family = .ipv4) :
    .ofIpv4 a.ipv4Bytes = a := by
  obtain ⟨family, bytes, htail⟩ := a
  subst hfamily
  have hbytes : (IpAddress.ofIpv4 (IpAddress.ipv4Bytes ⟨.ipv4, bytes, htail⟩)).bytes = bytes := by
    refine Vector.ext fun i hi => ?_
    rw [ofIpv4, Vector.getElem_ofFn]
    dsimp only
    split
    · show (Vector.ofFn _)[i] = bytes[i]
      rw [Vector.getElem_ofFn]
      rfl
    · rename_i hbehind
      exact (htail rfl ⟨i, hi⟩ (Nat.not_lt.mp hbehind)).symm
  rw [ofIpv4] at hbytes ⊢
  congr

/-- **An address is read back** from its text. -/
theorem IpAddress.parse_toString [InetText] [InetPton] {a : IpAddress} (h : a.TextReadsBack) :
    parse a.toString = .ok a := by
  rw [parse, cString_of_terminated h.terminated]
  cases hfamily : a.family with
  | ipv4 =>
    rw [h.ipv4 hfamily]
    exact congrArg _ (ofIpv4_ipv4Bytes hfamily)
  | ipv6 =>
    obtain ⟨hrejected, hbytes⟩ := h.ipv6 hfamily
    rw [hrejected, hbytes]
    obtain ⟨family, bytes, htail⟩ := a
    cases hfamily
    rfl

/-! ## What an element states -/

theorem interfaceName_inj {a b : Interface} (h : interfaceName a = interfaceName b) : a = b := by
  cases a with
  | n3 => cases b with
    | n3 => rfl
    | n6 => exact absurd h (by decide)
  | n6 => cases b with
    | n3 => exact absurd h (by decide)
    | n6 => rfl

/-- A protocol is read from its name. -/
theorem protocolName_inj {a b : TransportProtocol} (h : protocolName a = protocolName b) : a = b :=
  Option.some.inj ((protocol_eq_some.mpr rfl).symm.trans
    ((congrArg (fun name => protocol (.string name)) h).trans (protocol_eq_some.mpr rfl)))

theorem rightUnique_isName {α : Type} {name : α → String} (h : Function.Injective name) :
    RightUnique (IsName name) := by
  intro v a b ha hb
  exact h (Json.string.inj (ha.symm.trans hb))

theorem rightUnique_isNumber : RightUnique Json.IsNumber := by
  intro v a b ha hb
  exact_mod_cast Option.some.inj (ha.symm.trans hb)

theorem rightUnique_isParsed {α : Type} {parse : String → Except String α} :
    RightUnique (Json.IsParsed parse) := by
  rintro v a b ⟨s, rfl, ha⟩ ⟨t, hv, hb⟩
  cases hv
  exact Except.ok.inj (ha.symm.trans hb)

section States

variable {α : Type} {item : Json} {key : String} {S : Json → α → Prop}

/-- A member states one value. -/
theorem states_unique (hunique : RightUnique S) {a b : α} (ha : item.States key S a)
    (hb : item.States key S b) : a = b := by
  obtain ⟨v, hv, hva⟩ := ha
  obtain ⟨w, hw, hwb⟩ := hb
  cases hv.symm.trans hw
  exact hunique hva hwb

theorem statesOptional_unique (hunique : RightUnique S) {a b : Option α}
    (ha : item.StatesOptional key S a) (hb : item.StatesOptional key S b) : a = b := by
  cases a with
  | none => cases b with
    | none => rfl
    | some b =>
      obtain ⟨v, hv, -⟩ := hb
      cases ha.symm.trans hv
  | some a => cases b with
    | none =>
      obtain ⟨v, hv, -⟩ := ha
      cases hb.symm.trans hv
    | some b => exact congrArg some (states_unique hunique ha hb)

theorem lists_unique (hunique : RightUnique S) : RightUnique (Json.Lists S) := by
  rintro v as bs ⟨items, hitems, has⟩ ⟨items', hitems', hbs⟩
  cases hitems.symm.trans hitems'
  exact hunique.forall₂ has hbs

end States

theorem rightUnique_tunnelFaithful : RightUnique TunnelFaithful := by
  rintro v ⟨teid, qfi⟩ ⟨teid', qfi'⟩ h h'
  have hteid := states_unique rightUnique_isNumber h.teid h'.teid
  have hqfi := states_unique rightUnique_isNumber h.qfi h'.qfi
  exact congrArg₂ TunnelMetadata.mk (UInt32.toNat_inj.mp hteid) (UInt8.toNat_inj.mp hqfi)

/-- **An element states one packet.** -/
theorem packetFaithful_unique [InetPton] : RightUnique PacketFaithful := by
  intro item a b ha hb
  have hstring : RightUnique fun (v : Json) (s : String) => v = .string s :=
    fun v s t hs ht => Json.string.inj (hs.symm.trans ht)
  have hpacketId := states_unique hstring ha.packetId hb.packetId
  have hsessionId := states_unique hstring ha.sessionId hb.sessionId
  have hingress := states_unique (rightUnique_isName fun _ _ => interfaceName_inj) ha.ingress
    hb.ingress
  have htunnel := statesOptional_unique rightUnique_tunnelFaithful ha.tunnel hb.tunnel
  have hsource := states_unique rightUnique_isParsed ha.sourceIp hb.sourceIp
  have hdestination := states_unique rightUnique_isParsed ha.destinationIp hb.destinationIp
  have hprotocol := states_unique (rightUnique_isName fun _ _ => protocolName_inj) ha.protocol
    hb.protocol
  have hfrom := UInt16.toNat_inj.mp (states_unique rightUnique_isNumber ha.sourcePort hb.sourcePort)
  have hto := UInt16.toNat_inj.mp
    (states_unique rightUnique_isNumber ha.destinationPort hb.destinationPort)
  have hbytes := UInt32.toNat_inj.mp
    (states_unique rightUnique_isNumber ha.payloadBytes hb.payloadBytes)
  have htime := UInt64.toNat_inj.mp
    (states_unique rightUnique_isNumber ha.arrivalTimeMicros hb.arrivalTimeMicros)
  cases a
  cases b
  congr

/-! ## Rendered packets -/

theorem isNumber_unsigned {n : UInt64} {m : Nat} (h : n.toNat = m) : (Json.unsigned n).IsNumber m :=
  congrArg (fun k : Nat => some (k : ℚ)) h

theorem tunnelJson_faithful (tunnel : TunnelMetadata) :
    TunnelFaithful (tunnelJson (some tunnel)) tunnel where
  teid := ⟨_, rfl, isNumber_unsigned (UInt32.toNat_toUInt64 _)⟩
  qfi := ⟨_, rfl, isNumber_unsigned (UInt8.toNat_toUInt64 _)⟩

section RoundTrip

variable [InetText] [InetPton]

/-- **A rendered packet states itself.** -/
theorem packetJson_faithful {packet : Packet} (hsource : packet.sourceIp.TextReadsBack)
    (hdestination : packet.destinationIp.TextReadsBack) :
    PacketFaithful (packetJson packet) packet where
  packetId := ⟨_, rfl, rfl⟩
  sessionId := ⟨_, rfl, rfl⟩
  ingress := ⟨_, rfl, rfl⟩
  tunnel := by
    cases htunnel : packet.tunnel with
    | none =>
      rw [packetJson, htunnel]
      rfl
    | some tunnel =>
      rw [packetJson, htunnel]
      exact ⟨_, rfl, tunnelJson_faithful tunnel⟩
  sourceIp := ⟨_, rfl, _, rfl, IpAddress.parse_toString hsource⟩
  destinationIp := ⟨_, rfl, _, rfl, IpAddress.parse_toString hdestination⟩
  protocol := ⟨_, rfl, rfl⟩
  sourcePort := ⟨_, rfl, isNumber_unsigned (UInt16.toNat_toUInt64 _)⟩
  destinationPort := ⟨_, rfl, isNumber_unsigned (UInt16.toNat_toUInt64 _)⟩
  payloadBytes := ⟨_, rfl, isNumber_unsigned (UInt32.toNat_toUInt64 _)⟩
  arrivalTimeMicros := ⟨_, rfl, isNumber_unsigned rfl⟩

/-- **Rendered packets are read back**, field by field, whatever else the
document holds. -/
theorem parsePackets_packetJson [FloatCast] [ArgumentOrder] {packets : List Packet} {root : Json}
    (haddresses : ∀ packet ∈ packets,
      packet.sourceIp.TextReadsBack ∧ packet.destinationIp.TextReadsBack)
    (hroot : root.member? "packets" = some (.array (packets.map packetJson))) :
    parsePackets root = .value packets := by
  have hstates : root.States "packets" (Json.Lists PacketFaithful) packets := by
    refine ⟨_, hroot, _, rfl, List.forall₂_map_left_iff.mpr (List.forall₂_same.mpr ?_)⟩
    intro packet hpacket
    exact packetJson_faithful (haddresses packet hpacket).1 (haddresses packet hpacket).2
  exact Outcome.rescue_eq_value.mpr ((readPackets_reads root).eq_value hstates fun _ h =>
    states_unique (lists_unique packetFaithful_unique) h hstates)

end RoundTrip

/-- `inet_ntop` for IPv4 addresses and for IPv6 addresses without two zero
groups in a row. -/
@[reducible] def groupsText : InetText where
  ntop
    | .ipv4, bytes => PacketPipeline.dottedText.ntop .ipv4 bytes
    | .ipv6, bytes => String.intercalate ":" ((List.range 8).map fun i =>
        String.ofList (Nat.toDigits 16
          (256 * (bytes.toList.getD (2 * i) 0).toNat + (bytes.toList.getD (2 * i + 1) 0).toNat)))

/-- The value of a group of one to four hexadecimal digits. -/
def groupValue (group : List Char) : Option Nat :=
  if group.length < 1 ∨ 4 < group.length then none
  else group.foldlM (fun value c =>
    if c.isDigit then some (16 * value + (c.toNat - '0'.toNat))
    else if 'a' ≤ c ∧ c ≤ 'f' then some (16 * value + (c.toNat - 'a'.toNat + 10))
    else none) 0

/-- `inet_pton` for dotted quads and for texts of eight groups. -/
@[reducible] def groupsPton : InetPton where
  pton4 text := dottedQuad text.toList
  pton6 text :=
    match (text.toList.splitOn ':').mapM groupValue with
    | some groups =>
      if groups.length = 8 then
        some (.ofFn fun i => .ofNat (groups.getD (i.val / 2) 0 / 256 ^ (1 - i.val % 2)))
      else none
    | none => none

/-- A downlink packet between IPv6 addresses. -/
def ipv6Packet : Packet where
  packetId := "pkt-dl-006"
  sessionId := "session-1"
  ingress := .n6
  tunnel := none
  sourceIp := {
    family := .ipv6
    bytes := #v[0x20, 0x01, 0x0d, 0xb8, 0, 1, 0, 2, 0, 3, 0, 4, 0, 5, 0, 6]
    ipv4_tail := by decide }
  destinationIp := {
    family := .ipv6
    bytes := #v[0x20, 0x01, 0x0d, 0xb8, 0xff, 0x0f, 0, 0x20, 0, 3, 0, 4, 0, 5, 0, 7]
    ipv4_tail := by decide }
  protocol := .icmpv6
  sourcePort := 0
  destinationPort := 0
  payloadBytes := 96
  arrivalTimeMicros := 18446744073709551615

theorem textReadsBack_ipv4 {a : IpAddress} (hfamily : a.family = .ipv4)
    (hnull : '\x00' ∉ (@IpAddress.toString groupsText a).toList)
    (hpton : groupsPton.pton4 (@IpAddress.toString groupsText a) = some a.ipv4Bytes) :
    @IpAddress.TextReadsBack groupsText groupsPton a :=
  @IpAddress.TextReadsBack.mk groupsText groupsPton a hnull (fun _ => hpton)
    fun h => by cases hfamily.symm.trans h

theorem textReadsBack_ipv6 {a : IpAddress} (hfamily : a.family = .ipv6)
    (hnull : '\x00' ∉ (@IpAddress.toString groupsText a).toList)
    (hpton : groupsPton.pton4 (@IpAddress.toString groupsText a) = none ∧
      groupsPton.pton6 (@IpAddress.toString groupsText a) = some a.bytes) :
    @IpAddress.TextReadsBack groupsText groupsPton a :=
  @IpAddress.TextReadsBack.mk groupsText groupsPton a hnull
    (fun h => by cases hfamily.symm.trans h) fun _ => hpton

/-- A packet of each family, with and without a tunnel. -/
theorem parsePackets_packetJson_both :
    @parsePackets noFloats groupsPton secondFirst (.object [("packets", .array
        ([PacketPipeline.uplinkPacket, ipv6Packet].map (@packetJson groupsText)))])
      = .value [PacketPipeline.uplinkPacket, ipv6Packet] := by
  refine @parsePackets_packetJson groupsText groupsPton noFloats secondFirst _ _ ?_ rfl
  intro packet hpacket
  rcases List.mem_cons.mp hpacket with rfl | hpacket
  · exact ⟨textReadsBack_ipv4 rfl (by decide +kernel) (by decide +kernel),
      textReadsBack_ipv4 rfl (by decide +kernel) (by decide +kernel)⟩
  · obtain rfl := List.mem_singleton.mp hpacket
    exact ⟨textReadsBack_ipv6 rfl (by decide +kernel) (by decide +kernel),
      textReadsBack_ipv6 rfl (by decide +kernel) (by decide +kernel)⟩

end UpfPolicy
