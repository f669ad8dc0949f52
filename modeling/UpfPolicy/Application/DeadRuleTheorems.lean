/-
UpfPolicy.Application.DeadRuleTheorems — which accepted rules can match.

`Satisfiable` is what a PDR needs to be matched at all, and
`exists_common_packet`, used with one PDR on both sides, builds the packet
that matches it (`satisfiable_iff`). The validation checks the ports and
that a TEID is there on N3 and not on N6. It checks neither the value of the
TEID nor the QFI, which a packet cannot carry outside `TunnelMetadata::valid`:
an accepted PDR is dead exactly when it asks for such a value
(`accepted_matches_iff`).
-/
import UpfPolicy.Application.OverlapTheorems

namespace UpfPolicy

/-! ## Packets of a session -/

/-- The session ID is not a match field. -/
theorem PdrMatches.withSession {pdr : Pdr} {packet : Packet} (h : PdrMatches pdr packet)
    (sessionId : String) : PdrMatches pdr { packet with sessionId } :=
  ⟨h.ingress, h.tunnel, h.uePrefix, h.protocol, h.localPorts, h.remotePorts, h.qfi⟩

theorem PacketWellFormed.withSession {packet : Packet} (h : PacketWellFormed packet)
    {sessionId : String} (hsession : sessionId ≠ "") :
    PacketWellFormed { packet with sessionId } :=
  ⟨h.packetId, hsession, h.family, h.tunnelN3, h.tunnelN6⟩

/-- The match space of a PDR with valid ports meets itself. -/
theorem matchSpacesOverlap_self {pdr : Pdr} (h : Satisfiable pdr) :
    matchSpacesOverlap pdr pdr = true := by
  have hsame {α : Type} [DecidableEq α] (o : Option α) : optionalValuesOverlap o o = true :=
    optionalValuesOverlap_eq_true.mpr fun x y hx hy => Option.some.inj (hx.symm.trans hy)
  have hports {o : Option PortRange} (ho : ∀ r, o = some r → r.first ≤ r.last) :
      rangesOverlap o o = true := by
    refine rangesOverlap_eq_true.mpr fun r s hr hs => ?_
    cases hr.symm.trans hs
    exact ⟨ho r hr, ho r hr⟩
  simp only [matchSpacesOverlap, Bool.and_eq_true, Bool.or_eq_true, decide_eq_true_eq]
  exact ⟨⟨⟨⟨⟨⟨trivial, hsame _⟩, Or.inl pdr.uePrefix.contains_network⟩, hsame _⟩, hports h.localPorts⟩,
    hports h.remotePorts⟩, hsame _⟩

/-- **What a PDR needs to be matched**, in any session. -/
theorem satisfiable_iff (pdr : Pdr) {sessionId : String} (hsession : sessionId ≠ "") :
    Satisfiable pdr ↔
      ∃ packet, PacketWellFormed packet ∧ packet.sessionId = sessionId ∧ PdrMatches pdr packet := by
  constructor
  · intro h
    obtain ⟨packet, hwell, hmatch, -⟩ := exists_common_packet (matchSpacesOverlap_self h) h h
    exact ⟨{ packet with sessionId }, hwell.withSession hsession, rfl, hmatch.withSession sessionId⟩
  · rintro ⟨packet, hwell, -, hmatch⟩
    exact hmatch.satisfiable hwell

/-! ## Accepted rules -/

/-- The match fields that `validatePdr` checks. -/
structure PdrCriteria (pdr : Pdr) : Prop where
  teidN3 : pdr.sourceInterface = .n3 → pdr.teid.isSome = true
  teidN6 : pdr.sourceInterface = .n6 → pdr.teid = none
  localPorts : ∀ r, pdr.localPorts = some r → r.first ≤ r.last
  remotePorts : ∀ r, pdr.remotePorts = some r → r.first ≤ r.last

theorem validatePdr_criteria {rules : RuleSet} {pdr : Pdr} (h : validatePdr rules pdr = .ok ()) :
    PdrCriteria pdr := by
  have hrange {o : Option PortRange} (ho : ¬ (o.any fun r => !r.valid) = true) :
      ∀ r, o = some r → r.first ≤ r.last := by
    intro r hr
    rw [hr] at ho
    simpa [PortRange.valid] using ho
  unfold validatePdr at h
  cases hfar : findFar rules pdr.farId with
  | none =>
    rw [hfar] at h
    cases h
  | some far =>
    simp only [hfar, ite_error_eq_ok] at h
    obtain ⟨-, -, hn3, hn6, hlocal, hremote, -⟩ := h
    refine ⟨fun hside => ?_, fun hside => ?_, hrange hlocal, hrange hremote⟩
    · have hsome := not_and.mp hn3 hside
      rwa [Bool.not_eq_true, Option.isNone_eq_false_iff] at hsome
    · have hnone := not_and.mp hn6 hside
      rwa [Bool.not_eq_true, Option.isSome_eq_false_iff, Option.isNone_iff_eq_none] at hnone

/-- A packet can carry the TEID and the QFI that the PDR asks for. -/
def Pdr.TunnelFits (pdr : Pdr) : Prop :=
  match pdr.sourceInterface with
  | .n3 => pdr.teid ≠ some 0 ∧ ∀ qfi ∈ pdr.qfi, 1 ≤ qfi ∧ qfi ≤ 63
  | .n6 => pdr.qfi = none

theorem PdrCriteria.satisfiable_iff {pdr : Pdr} (h : PdrCriteria pdr) :
    Satisfiable pdr ↔ pdr.TunnelFits := by
  unfold Pdr.TunnelFits
  cases hside : pdr.sourceInterface with
  | n3 =>
    constructor
    · intro hs
      exact ⟨fun hzero => hs.teid hside 0 hzero rfl, fun qfi hqfi => hs.qfi hside qfi hqfi⟩
    · rintro ⟨hteid, hqfi⟩
      refine ⟨fun _ teid hsome hzero => hteid (hzero ▸ hsome), fun _ => hqfi, fun hn6 => ?_,
        h.localPorts, h.remotePorts⟩
      cases hside.symm.trans hn6
  | n6 =>
    constructor
    · intro hs
      exact (hs.noTunnel hside).2
    · intro hqfi
      refine ⟨fun hn3 => ?_, fun hn3 => ?_, fun _ => ⟨h.teidN6 hside, hqfi⟩, h.localPorts,
        h.remotePorts⟩
      · cases hside.symm.trans hn3
      · cases hside.symm.trans hn3

/-- **An accepted rule is alive** exactly when a packet can carry the TEID
and the QFI it asks for. -/
theorem accepted_matches_iff [InetText] {rules : RuleSet} {limits : CapacityLimits}
    (haccepted : validateRuleSet rules limits = .ok ()) {pdr : Pdr} (hpdr : pdr ∈ rules.pdrs) :
    (∃ packet, PacketPipeline.validPacket packet = true ∧ packet.sessionId = rules.sessionId ∧
        (evaluateCandidate pdr packet).matched = true) ↔ pdr.TunnelFits := by
  have hvalid := (validateRuleSet_ok_iff rules limits).mp haccepted
  have hsession : rules.sessionId ≠ "" := by
    intro hempty
    have hfalse := hvalid.session
    rw [hempty] at hfalse
    exact absurd hfalse (by decide)
  simp only [validPacket_iff, evaluateCandidate_matched_iff]
  rw [← (validatePdr_criteria (hvalid.pdrOk pdr hpdr)).satisfiable_iff]
  exact (satisfiable_iff pdr hsession).symm

theorem accepted_matches_basic :
    validateRuleSet basicRules {} = .ok () ∧
      ∃ pdr ∈ basicRules.pdrs,
        ((∃ packet, PacketPipeline.validPacket packet = true ∧
            packet.sessionId = basicRules.sessionId ∧
            (@evaluateCandidate PacketPipeline.dottedText pdr packet).matched = true) ↔
          pdr.TunnelFits) :=
  ⟨by decide, _, List.mem_cons_self,
    @accepted_matches_iff PacketPipeline.dottedText basicRules {} (by decide) _ List.mem_cons_self⟩

/-- `basicRules` with the QFI 64. -/
def deadRules : RuleSet :=
  { basicRules with pdrs := basicRules.pdrs.map fun pdr => { pdr with qfi := some 64 } }

theorem deadRules_accepted : validateRuleSet deadRules {} = .ok () := by decide

/-- No packet carries the QFI 64. -/
theorem accepted_matches_dead :
    ¬ ∀ (rules : RuleSet) (limits : CapacityLimits), validateRuleSet rules limits = .ok () →
      ∀ pdr ∈ rules.pdrs, ∃ packet, PacketPipeline.validPacket packet = true ∧
        packet.sessionId = rules.sessionId ∧
        (@evaluateCandidate PacketPipeline.dottedText pdr packet).matched = true := by
  intro h
  obtain ⟨packet, hvalid, -, hmatched⟩ := h deadRules {} deadRules_accepted _ List.mem_cons_self
  have hmatch := (@evaluateCandidate_matched_iff PacketPipeline.dottedText _ packet).mp hmatched
  have hrange := (hmatch.satisfiable ((validPacket_iff packet).mp hvalid)).qfi rfl 64 rfl
  exact absurd hrange.2 (by decide)

end UpfPolicy
