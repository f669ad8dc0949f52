/-
UpfPolicy.Domain.MatcherTheorems — when a PDR matches, and what two PDRs
that match one packet have in common.

`evaluateCandidate_matched_iff` reads the conjunction of the seven criteria
as the structure `PdrMatches`. `matchSpacesOverlap_of_matches` is the
soundness of the overlap test of the validation: PDRs with a common packet
overlap. The test is symmetric (`matchSpacesOverlap_comm`), which is why it
is enough to make it once for every pair.
-/
import UpfPolicy.Domain.AddressTheorems
import UpfPolicy.Domain.Matcher

namespace UpfPolicy

/-- The packet meets every criterion of the PDR. -/
structure PdrMatches (pdr : Pdr) (packet : Packet) : Prop where
  ingress : pdr.sourceInterface = packet.ingress
  tunnel : ∀ teid, pdr.teid = some teid → ∃ t, packet.tunnel = some t ∧ t.teid = teid
  uePrefix : pdr.uePrefix.contains packet.ueIp = true
  protocol : ∀ p, pdr.protocol = some p → p = packet.protocol
  localPorts : ∀ r, pdr.localPorts = some r → r.contains packet.localPort = true
  remotePorts : ∀ r, pdr.remotePorts = some r → r.contains packet.remotePort = true
  qfi : ∀ qfi, pdr.qfi = some qfi → ∃ t, packet.tunnel = some t ∧ t.qfi = qfi

theorem evaluateCandidate_matched_iff [InetText] (pdr : Pdr) (packet : Packet) :
    (evaluateCandidate pdr packet).matched = true ↔ PdrMatches pdr packet := by
  simp only [evaluateCandidate, Bool.and_eq_true, decide_eq_true_eq, Option.all_eq_true,
    Option.any_eq_true, beq_iff_eq]
  constructor
  · rintro ⟨⟨⟨⟨⟨⟨h1, h2⟩, h3⟩, h4⟩, h5⟩, h6⟩, h7⟩
    exact ⟨h1, h2, h3, h4, h5, h6, h7⟩
  · rintro ⟨h1, h2, h3, h4, h5, h6, h7⟩
    exact ⟨⟨⟨⟨⟨⟨h1, h2⟩, h3⟩, h4⟩, h5⟩, h6⟩, h7⟩

/-! ## Overlap -/

theorem optionalValuesOverlap_eq_true {α : Type} [DecidableEq α] {a b : Option α} :
    optionalValuesOverlap a b = true ↔ ∀ x y, a = some x → b = some y → x = y := by
  cases a <;> cases b <;> simp [optionalValuesOverlap]

theorem rangesOverlap_eq_true {a b : Option PortRange} :
    rangesOverlap a b = true ↔
      ∀ r s, a = some r → b = some s → r.first ≤ s.last ∧ s.first ≤ r.last := by
  cases a <;> cases b <;> simp [rangesOverlap]

/-- Two ranges with a common port overlap. -/
theorem rangesOverlap_of_contains {a b : Option PortRange} {port : UInt16}
    (ha : ∀ r, a = some r → r.contains port = true)
    (hb : ∀ r, b = some r → r.contains port = true) : rangesOverlap a b = true := by
  rw [rangesOverlap_eq_true]
  intro r s hr hs
  have h1 := ha r hr
  have h2 := hb s hs
  simp only [PortRange.contains, Bool.and_eq_true, decide_eq_true_eq, ge_iff_le] at h1 h2
  exact ⟨UInt16.le_trans h1.1.2 h2.2, UInt16.le_trans h2.1.2 h1.2⟩

/-- **The overlap test is sound**: PDRs that match one packet overlap. -/
theorem matchSpacesOverlap_of_matches {a b : Pdr} {packet : Packet}
    (ha : PdrMatches a packet) (hb : PdrMatches b packet) : matchSpacesOverlap a b = true := by
  simp only [matchSpacesOverlap, Bool.and_eq_true, Bool.or_eq_true, decide_eq_true_eq,
    optionalValuesOverlap_eq_true]
  refine ⟨⟨⟨⟨⟨⟨?_, ?_⟩, ?_⟩, ?_⟩, ?_⟩, ?_⟩, ?_⟩
  · rw [ha.ingress, hb.ingress]
  · intro x y hx hy
    obtain ⟨t, ht, rfl⟩ := ha.tunnel x hx
    obtain ⟨t', ht', rfl⟩ := hb.tunnel y hy
    rw [ht] at ht'
    cases ht'
    rfl
  · exact IpPrefix.contains_network_of_common ha.uePrefix hb.uePrefix
  · intro x y hx hy
    rw [ha.protocol x hx, hb.protocol y hy]
  · exact rangesOverlap_of_contains ha.localPorts hb.localPorts
  · exact rangesOverlap_of_contains ha.remotePorts hb.remotePorts
  · intro x y hx hy
    obtain ⟨t, ht, rfl⟩ := ha.qfi x hx
    obtain ⟨t', ht', rfl⟩ := hb.qfi y hy
    rw [ht] at ht'
    cases ht'
    rfl

theorem optionalValuesOverlap_comm {α : Type} [DecidableEq α] (a b : Option α) :
    optionalValuesOverlap a b = optionalValuesOverlap b a := by
  cases a <;> cases b <;> simp [optionalValuesOverlap, eq_comm]

theorem rangesOverlap_comm (a b : Option PortRange) : rangesOverlap a b = rangesOverlap b a := by
  cases a <;> cases b <;> simp [rangesOverlap, Bool.and_comm]

theorem matchSpacesOverlap_comm (a b : Pdr) : matchSpacesOverlap a b = matchSpacesOverlap b a := by
  simp only [matchSpacesOverlap, optionalValuesOverlap_comm a.teid,
    optionalValuesOverlap_comm a.protocol, optionalValuesOverlap_comm a.qfi,
    rangesOverlap_comm a.localPorts, rangesOverlap_comm a.remotePorts,
    Bool.or_comm (a.uePrefix.contains b.uePrefix.network),
    eq_comm (a := a.sourceInterface)]

end UpfPolicy
