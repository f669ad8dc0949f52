/-
UpfPolicy.Application.SelectionTheorems — which PDR wins.

`selectPdr` is a first-wins walk with a strict comparison. On an accepted
ruleset two PDRs that match one packet never have the same precedence
(`RuleSetValid.precedence_inj`), so the winner is the matching PDR of least
precedence, whatever the order of the list (`selectPdr_winner`).

The FAR of the winner exists and fits the packet's direction
(`RuleSetValid.winner_far`), so `evaluateFar` is valid on it.
-/
import UpfPolicy.Application.PacketPipeline
import UpfPolicy.Domain.EngineTheorems
import UpfPolicy.Domain.ValidationTheorems
import UpfPolicy.Support.Selection

namespace UpfPolicy

open Support

/-- The matching PDR of least precedence. -/
structure Selects (rules : RuleSet) (packet : Packet) (winner : Pdr) : Prop where
  mem : winner ∈ rules.pdrs
  matched : PdrMatches winner packet
  least : ∀ pdr ∈ rules.pdrs, PdrMatches pdr packet →
    winner.precedence.toNat ≤ pdr.precedence.toNat

/-! ## The walk -/

section Walk

variable [InetText]

theorem foldl_selectStep (packet : Packet) (pdrs : List Pdr) (found : List MatchCandidate)
    (winner : Option Pdr) :
    pdrs.foldl (PacketPipeline.selectStep packet) (found, winner) =
      (found ++ pdrs.map (evaluateCandidate · packet),
        (pdrs.filter fun pdr => (evaluateCandidate pdr packet).matched).foldl
          (minStep (·.precedence.toNat)) winner) := by
  induction pdrs generalizing found winner with
  | nil => simp
  | cons pdr rest ih =>
    rw [List.foldl_cons, PacketPipeline.selectStep, ih]
    cases hmatch : (evaluateCandidate pdr packet).matched with
    | false => simp [hmatch]
    | true => simp [hmatch, minStep, UInt32.lt_iff_toNat_lt]

theorem selectPdr_eq (pdrs : List Pdr) (packet : Packet) :
    PacketPipeline.selectPdr pdrs packet =
      (pdrs.map (evaluateCandidate · packet),
        firstMin (·.precedence.toNat)
          (pdrs.filter fun pdr => (evaluateCandidate pdr packet).matched)) := by
  rw [PacketPipeline.selectPdr, foldl_selectStep]
  rfl

theorem mem_filter_matched {pdrs : List Pdr} {packet : Packet} {pdr : Pdr} :
    pdr ∈ pdrs.filter (fun pdr => (evaluateCandidate pdr packet).matched) ↔
      pdr ∈ pdrs ∧ PdrMatches pdr packet := by
  rw [List.mem_filter, evaluateCandidate_matched_iff]

end Walk

/-! ## The winner -/

/-- Matching PDRs of an accepted ruleset have distinct precedences. -/
theorem RuleSetValid.precedence_inj {rules : RuleSet} {limits : CapacityLimits}
    (h : RuleSetValid rules limits) {packet : Packet} {a b : Pdr} (ha : a ∈ rules.pdrs)
    (hb : b ∈ rules.pdrs) (hma : PdrMatches a packet) (hmb : PdrMatches b packet)
    (hprec : a.precedence.toNat = b.precedence.toNat) : a = b := by
  by_contra hne
  exact h.not_conflict ha hb hne ⟨UInt32.toNat_inj.mp hprec, matchSpacesOverlap_of_matches hma hmb⟩

theorem RuleSetValid.matched_inj [InetText] {rules : RuleSet} {limits : CapacityLimits}
    (h : RuleSetValid rules limits) (packet : Packet) :
    ∀ a ∈ rules.pdrs.filter (fun pdr => (evaluateCandidate pdr packet).matched),
      ∀ b ∈ rules.pdrs.filter (fun pdr => (evaluateCandidate pdr packet).matched),
        a.precedence.toNat = b.precedence.toNat → a = b := by
  intro a ha b hb hprec
  obtain ⟨hma, hpa⟩ := mem_filter_matched.mp ha
  obtain ⟨hmb, hpb⟩ := mem_filter_matched.mp hb
  exact h.precedence_inj hma hmb hpa hpb hprec

/-- **The winner is the matching PDR of least precedence.** -/
theorem RuleSetValid.selectPdr_winner [InetText] {rules : RuleSet} {limits : CapacityLimits}
    (h : RuleSetValid rules limits) (packet : Packet) (winner : Pdr) :
    (PacketPipeline.selectPdr rules.pdrs packet).2 = some winner ↔ Selects rules packet winner := by
  simp only [selectPdr_eq, firstMin_eq_some_iff (h.matched_inj packet), mem_filter_matched]
  constructor
  · intro hsel
    exact ⟨hsel.1.1, hsel.1.2, fun pdr hpdr hm => hsel.2 pdr ⟨hpdr, hm⟩⟩
  · intro hsel
    exact ⟨⟨hsel.mem, hsel.matched⟩, fun pdr hpdr => hsel.least pdr hpdr.1 hpdr.2⟩

theorem selectPdr_eq_none_iff [InetText] (rules : RuleSet) (packet : Packet) :
    (PacketPipeline.selectPdr rules.pdrs packet).2 = none ↔
      ∀ pdr ∈ rules.pdrs, ¬ PdrMatches pdr packet := by
  simp only [selectPdr_eq, firstMin_eq_none_iff, List.eq_nil_iff_forall_not_mem,
    mem_filter_matched, not_and]

theorem Selects.unique {rules : RuleSet} {limits : CapacityLimits} (h : RuleSetValid rules limits)
    {packet : Packet} {a b : Pdr} (ha : Selects rules packet a) (hb : Selects rules packet b) :
    a = b :=
  h.precedence_inj ha.mem hb.mem ha.matched hb.matched
    (Nat.le_antisymm (ha.least b hb.mem hb.matched) (hb.least a ha.mem ha.matched))

/-! ## What the winner cites -/

/-- The QER a PDR cites. -/
def citedQer (rules : RuleSet) (pdr : Pdr) : Option Qer := pdr.qerId.bind (findQer rules)

/-- The URR a PDR cites. -/
def citedUrr (rules : RuleSet) (pdr : Pdr) : Option Urr := pdr.urrId.bind (findUrr rules)

theorem citedQer_mem {rules : RuleSet} {pdr : Pdr} {qer : Qer}
    (h : citedQer rules pdr = some qer) : qer ∈ rules.qers ∧ pdr.qerId = some qer.id := by
  obtain ⟨id, hid, hfind⟩ := Option.bind_eq_some_iff.mp h
  have hkey : qer.id = id := by simpa using List.find?_some hfind
  exact ⟨List.mem_of_find?_eq_some hfind, hkey ▸ hid⟩

theorem citedUrr_mem {rules : RuleSet} {pdr : Pdr} {urr : Urr}
    (h : citedUrr rules pdr = some urr) : urr ∈ rules.urrs ∧ pdr.urrId = some urr.id := by
  obtain ⟨id, hid, hfind⟩ := Option.bind_eq_some_iff.mp h
  have hkey : urr.id = id := by simpa using List.find?_some hfind
  exact ⟨List.mem_of_find?_eq_some hfind, hkey ▸ hid⟩

/-- An accepted PDR finds the rules it cites. -/
theorem PdrReferences.qer_cited {rules : RuleSet} {pdr : Pdr} (h : PdrReferences rules pdr)
    {id : QerId} (hid : pdr.qerId = some id) :
    ∃ qer, findQer rules id = some qer ∧ citedQer rules pdr = some qer ∧ qer ∈ rules.qers ∧
      id = qer.id := by
  obtain ⟨qer, hfind⟩ := h.qer id hid
  have hcited : citedQer rules pdr = some qer := by rw [citedQer, hid]; exact hfind
  obtain ⟨hmem, hsame⟩ := citedQer_mem hcited
  rw [hid] at hsame
  exact ⟨qer, hfind, hcited, hmem, Option.some.inj hsame⟩

theorem PdrReferences.urr_cited {rules : RuleSet} {pdr : Pdr} (h : PdrReferences rules pdr)
    {id : UrrId} (hid : pdr.urrId = some id) :
    ∃ urr, findUrr rules id = some urr ∧ citedUrr rules pdr = some urr ∧ urr ∈ rules.urrs ∧
      id = urr.id := by
  obtain ⟨urr, hfind⟩ := h.urr id hid
  have hcited : citedUrr rules pdr = some urr := by rw [citedUrr, hid]; exact hfind
  obtain ⟨hmem, hsame⟩ := citedUrr_mem hcited
  rw [hid] at hsame
  exact ⟨urr, hfind, hcited, hmem, Option.some.inj hsame⟩

/-- The other side of the gateway. -/
def Interface.opposite : Interface → Interface
  | .n3 => .n6
  | .n6 => .n3

/-- What `evaluateFar` computes on a FAR that fits the direction of the
packet. -/
structure FarResolved (far : Far) (packet : Packet) (e : FarEvaluation) : Prop where
  valid : e.valid = true
  forwarded : e.forwarded = decide (far.action = .forward)
  destination : far.action = .forward → e.destination = packet.ingress.opposite

theorem FarFits.resolved {pdr : Pdr} {far : Far} {packet : Packet} (h : FarFits pdr far)
    (hingress : pdr.sourceInterface = packet.ingress) :
    FarResolved far packet (evaluateFar far packet) := by
  unfold evaluateFar
  cases haction : far.action with
  | drop =>
    obtain ⟨hdest, hop⟩ := h.drop haction
    exact ⟨by simp [hdest, hop], by simp [haction], by simp [haction]⟩
  | forward =>
    cases hside : packet.ingress with
    | n3 =>
      obtain ⟨hdest, hop⟩ := h.uplink haction (hingress.trans hside)
      simp only [hdest, hop, reduceCtorEq, and_self, if_true, if_false]
      exact ⟨rfl, by simp [haction], fun _ => by rw [hside]; rfl⟩
    | n6 =>
      obtain ⟨hdest, hop, t, ht, -⟩ := h.downlink haction (hingress.trans hside)
      simp only [hdest, hop, ht, Option.isSome_some, reduceCtorEq, and_self, if_true, if_false]
      exact ⟨rfl, by simp [haction], fun _ => by rw [hside]; rfl⟩

/-- The packet that leaves through `side`: the processed packet with the
tunnel of that side. -/
structure Transformed (packet : Packet) (side : Interface) (out : Packet) : Prop where
  side_eq : side = packet.ingress.opposite
  same : { out with tunnel := packet.tunnel } = packet
  uplink : packet.ingress = .n3 → out.tunnel = none
  downlink : packet.ingress = .n6 → ∃ t, out.tunnel = some t ∧ t.valid = true

/-- What the FAR of a winner makes of the packet it forwards. -/
theorem FarFits.transformed {winner : Pdr} {far : Far} {packet : Packet} (h : FarFits winner far)
    (hingress : winner.sourceInterface = packet.ingress) (haction : far.action = .forward) :
    Transformed packet (evaluateFar far packet).destination (evaluateFar far packet).packet := by
  have hresolved : FarResolved far packet (evaluateFar far packet) := h.resolved hingress
  cases hside : packet.ingress with
  | n3 =>
    obtain ⟨hdest, hop⟩ := h.uplink haction (hingress.trans hside)
    have hpacket : (evaluateFar far packet).packet = { packet with tunnel := none } := by
      simp [evaluateFar, haction, hdest, hop, hside]
    refine ⟨hresolved.destination haction, ?_, fun _ => ?_, fun hn6 => ?_⟩
    · rw [hpacket]
    · rw [hpacket]
    · rw [hside] at hn6; cases hn6
  | n6 =>
    obtain ⟨hdest, hop, t, htunnel, hvalid⟩ := h.downlink haction (hingress.trans hside)
    have hpacket : (evaluateFar far packet).packet = { packet with tunnel := some t } := by
      simp [evaluateFar, haction, hdest, hop, hside, htunnel]
    refine ⟨hresolved.destination haction, ?_, fun hn3 => ?_, fun _ => ⟨t, ?_, hvalid⟩⟩
    · rw [hpacket]
    · rw [hside] at hn3; cases hn3
    · rw [hpacket]

/-- **The FAR of a winner exists and fits the packet.** -/
theorem RuleSetValid.winner_far {rules : RuleSet} {limits : CapacityLimits}
    (h : RuleSetValid rules limits) {packet : Packet} {winner : Pdr}
    (hsel : Selects rules packet winner) :
    ∃ far, findFar rules winner.farId = some far ∧
      FarResolved far packet (evaluateFar far packet) := by
  obtain ⟨far, hfar, hfits⟩ := (validatePdr_ok (h.pdrOk winner hsel.mem)).far
  exact ⟨far, hfar, hfits.resolved hsel.matched.ingress⟩

end UpfPolicy
