/-
UpfPolicy.Application.ForwardingTheorems — packets that were forwarded.

A packet in a sink keeps its ingress and has the tunnel of the side it
leaves through, so it is well formed on that side and malformed where it
came from (`Sent.wellFormed`). Every packet in a sink of a reachable
pipeline is such a packet, and a pipeline that gets it again, in whatever
state and under whatever rules, does not forward, count or charge it
(`forwarded_once`).
-/
import UpfPolicy.Application.DeliveryTheorems

namespace UpfPolicy

open Support

namespace PacketPipeline

/-- The packet on the side it leaves through. -/
def crossed (out : Packet) : Packet := { out with ingress := out.ingress.opposite }

/-- The packet left through `side`: it is the transformed form of a packet
that was valid. -/
def Sent (side : Interface) (out : Packet) : Prop :=
  ∃ packet, validPacket packet = true ∧ Transformed packet side out

/-- What a valid packet has besides its tunnel. -/
structure Addressed (packet : Packet) : Prop where
  packetId : packet.packetId.isEmpty = false
  sessionId : packet.sessionId.isEmpty = false
  family : packet.sourceIp.family = packet.destinationIp.family

theorem validPacket_iff_addressed (packet : Packet) :
    validPacket packet = true ↔ Addressed packet ∧
      (packet.ingress = .n3 → packet.tunnel.any (·.valid) = true) ∧
      (packet.ingress = .n6 → packet.tunnel = none) := by
  unfold validPacket
  by_cases hids : (packet.packetId.isEmpty || packet.sessionId.isEmpty) = true
  · rw [if_pos hids]
    refine iff_of_false Bool.false_ne_true fun h => ?_
    rw [h.1.packetId, h.1.sessionId] at hids
    cases hids
  · rw [if_neg hids]
    rw [Bool.not_eq_true, Bool.or_eq_false_iff] at hids
    by_cases hfamily : packet.sourceIp.family = packet.destinationIp.family
    · rw [if_neg (not_not.mpr hfamily)]
      have haddressed : Addressed packet := ⟨hids.1, hids.2, hfamily⟩
      cases packet.ingress with
      | n3 => simp [haddressed]
      | n6 => simp [haddressed]
    · rw [if_pos hfamily]
      exact iff_of_false Bool.false_ne_true fun h => hfamily h.1.family

/-- **A forwarded packet** is malformed where it came from and well formed
on the side it leaves through. -/
theorem Sent.wellFormed {side : Interface} {out : Packet} (h : Sent side out) :
    validPacket out = false ∧ validPacket (crossed out) = true := by
  obtain ⟨packet, hvalid, htransformed⟩ := h
  obtain ⟨haddressed, -, -⟩ := (validPacket_iff_addressed packet).mp hvalid
  have hkept : Addressed out := by
    rw [← htransformed.same] at haddressed
    exact ⟨haddressed.packetId, haddressed.sessionId, haddressed.family⟩
  cases side with
  | n3 =>
    obtain ⟨hingress, t, htunnel, hteid, hlow, hhigh⟩ := sentDownlink_of_transformed htransformed
    have hok : t.valid = true := by
      simp [TunnelMetadata.valid, hteid, UInt8.le_iff_toNat_le, hlow, hhigh]
    constructor
    · rw [← Bool.not_eq_true, validPacket_iff_addressed]
      rintro ⟨-, -, hnone⟩
      rw [hnone hingress] at htunnel
      cases htunnel
    · refine (validPacket_iff_addressed _).mpr ⟨⟨hkept.packetId, hkept.sessionId, hkept.family⟩, ?_, ?_⟩
      · intro _
        simp [crossed, htunnel, hok]
      · intro hopposite
        simp [crossed, hingress, Interface.opposite] at hopposite
  | n6 =>
    obtain ⟨hingress, hnone⟩ := sentUplink_of_transformed htransformed
    constructor
    · rw [← Bool.not_eq_true, validPacket_iff_addressed]
      rintro ⟨-, htunnel, -⟩
      have hsome := htunnel hingress
      rw [hnone] at hsome
      cases hsome
    · refine (validPacket_iff_addressed _).mpr ⟨⟨hkept.packetId, hkept.sessionId, hkept.family⟩, ?_, ?_⟩
      · intro hopposite
        simp [crossed, hingress, Interface.opposite] at hopposite
      · intro _
        exact hnone

/-! ## Sinks -/

/-- The sinks hold packets that left through them. -/
def SinksSent (p : PacketPipeline) : Prop := ∀ side, ∀ out ∈ p.sinkOf side, Sent side out

section Step

variable {p p' : PacketPipeline}

theorem SinksSent.settle {r : Verdict} (h : p.SinksSent)
    (hsent : ∀ side out, r.effect.sent = some (side, out) → Sent side out) :
    (p.settle r).2.SinksSent := by
  intro side out hout
  have hsinks : (p.settle r).2.sinkOf side = p.sinkOf side ++ r.effect.sentTo side := by
    rw [← applyEffect_sinkOf]
    cases side <;> simp [PacketPipeline.settle, sinkOf]
  rw [hsinks] at hout
  rcases List.mem_append.mp hout with hold | hnew
  · exact h side out hold
  · refine hsent side out ?_
    unfold Effect.sentTo at hnew
    cases hcase : r.effect.sent with
    | none => simp [hcase] at hnew
    | some sent =>
      obtain ⟨destination, packet⟩ := sent
      simp only [hcase] at hnew
      split at hnew
      · rename_i hside
        rw [List.mem_singleton.mp hnew, hside]
      · cases hnew

theorem SinksSent.exec [InetText] (h : p.SinksSent) (hwf : p.WellFormed) {call : PipelineCall}
    {reply : PipelineReply} (hexec : p.exec call = some (reply, p')) : p'.SinksSent := by
  cases hwf.answered hexec with
  | installed _ _ houtcome =>
    cases houtcome with
    | rejected _ _ hkept => subst hkept; exact h
    | accepted _ _ hinstalled => subst hinstalled; exact h
  | full _ _ _ hafter => subst hafter; exact h
  | @settled packet runId scenarioId _ _ _ hafter =>
    subst hafter
    refine h.settle fun side out hsent => ?_
    cases hwf.judged packet runId scenarioId with
    | untried _ heffect => rw [heffect] at hsent; cases hsent
    | tried _ htried hruling => exact ⟨packet, htried.valid, (hruling.sent side out hsent).2⟩

/-- What every call keeps, for the induction over a run. -/
structure Forwarding (p : PacketPipeline) : Prop where
  wellFormed : p.WellFormed
  sinks : p.SinksSent

theorem forwarding_of_reachable [InetText] {limits : CapacityLimits}
    (h : Reachable PacketPipeline.exec (new limits) p) : Forwarding p :=
  h.invariant ⟨wellFormed_new limits, fun side _ hout => by cases side <;> cases hout⟩
    fun _ _ _ _ hs hexec => ⟨hs.wellFormed.exec hexec, hs.sinks.exec hs.wellFormed hexec⟩

end Step

/-- A packet that was turned away before it was tried: the runtime state, the
reports and the sinks stay as they are, and nothing is matched, charged or
counted. -/
structure Refused (q : PacketPipeline) (d : PacketDecision) (q' : PacketPipeline) : Prop where
  kept : SameStores q q'
  result : d.terminalResult = .malformedPacket ∨ d.terminalResult = .noMatch ∨
    d.terminalResult = .capacityError
  untried : d.candidates = []
  unselected : d.selectedPdrId = 0
  uncharged : d.qer = {}
  uncounted : d.urr = {}

/-- Recording a decision leaves the selection as it is. -/
theorem retain_selection (q : PacketPipeline) (d : PacketDecision) :
    (q.retain d).1.candidates = d.candidates ∧ (q.retain d).1.selectedPdrId = d.selectedPdrId := by
  unfold retain
  split
  · exact ⟨rfl, rfl⟩
  · exact ⟨rfl, rfl⟩

/-- A malformed packet is not matched against any PDR. -/
theorem untried_of_malformed [InetText] {q q' : PacketPipeline} {packet : Packet} {d : PacketDecision}
    {runId scenarioId : String} (hbad : validPacket packet = false)
    (hprocess : q.process packet runId scenarioId = some (d, q')) :
    d.candidates = [] ∧ d.selectedPdrId = 0 := by
  have hrecorded {result : TerminalResult}
      (h : some (q.retain { q.header packet runId scenarioId with terminalResult := result })
        = some (d, q')) : d.candidates = [] ∧ d.selectedPdrId = 0 := by
    have hkept := q.retain_selection
      { q.header packet runId scenarioId with terminalResult := result }
    rwa [Option.some.inj h] at hkept
  unfold process at hprocess
  split at hprocess
  · cases hprocess
    exact ⟨rfl, rfl⟩
  · split at hprocess
    · exact hrecorded hprocess
    · rw [if_pos (by rw [hbad]; rfl)] at hprocess
      exact hrecorded hprocess

/-- A malformed packet is refused. -/
theorem refused_of_malformed [InetText] {q : PacketPipeline} (hwf : q.WellFormed) {packet : Packet}
    (hbad : validPacket packet = false) (runId scenarioId : String) :
    ∃ d q', q.process packet runId scenarioId = some (d, q') ∧ Refused q d q' := by
  obtain ⟨d, q', hprocess, -, hexit⟩ := hwf.process_exit packet runId scenarioId
  have hnever : ∀ {rules winner far}, ¬ Attempt q packet rules winner far := by
    intro rules winner far hat
    rw [hat.valid] at hbad
    cases hbad
  refine ⟨d, q', hprocess, ?_⟩
  cases hexit with
  | rejected hwhy hresult hqer hurr hkept =>
    obtain ⟨hcandidates, hselected⟩ := untried_of_malformed hbad hprocess
    refine ⟨hkept, ?_, hcandidates, hselected, hqer, hurr⟩
    rw [hresult]
    cases hwhy <;> simp
  | denied hat => exact absurd hat hnever
  | limited hat => exact absurd hat hnever
  | overflow hat => exact absurd hat hnever
  | reportsFull hat => exact absurd hat hnever
  | sinkFull hat => exact absurd hat hnever
  | dropped hat => exact absurd hat hnever
  | forwarded hat => exact absurd hat hnever

/-- **A packet is forwarded once.** Every packet in a sink of a reachable
pipeline is well formed on the side it left through; handed to any reachable
pipeline as it is, it is refused and nothing is forwarded, counted or
charged. -/
theorem forwarded_once [InetText] {limits limits' : CapacityLimits} {p q : PacketPipeline}
    (hp : Reachable exec (new limits) p) (hq : Reachable exec (new limits') q) {side : Interface}
    {out : Packet} (hout : out ∈ p.sinkOf side) (runId scenarioId : String) :
    validPacket (crossed out) = true ∧
      ∃ d q', q.process out runId scenarioId = some (d, q') ∧ Refused q d q' := by
  have hsent := (forwarding_of_reachable hp).sinks side out hout
  obtain ⟨hmalformed, hcrossed⟩ := hsent.wellFormed
  exact ⟨hcrossed, refused_of_malformed (wellFormed_of_reachable hq) hmalformed runId scenarioId⟩

/-- The pipeline of the test builders, after the packet it forwards. -/
def forwardingRun : Option (List PipelineEvent × PacketPipeline) :=
  run (@exec dottedText) (new {}) [.install basicRules, .process uplinkPacket "r" "s"]

theorem forwardingRun_isSome : forwardingRun.isSome = true := by decide +kernel

/-- The packet without its tunnel, back at the pipeline that sent it. -/
theorem forwarded_once_uplink :
    validPacket (crossed { uplinkPacket with tunnel := none }) = true ∧
      ∃ d q', @process dottedText (forwardingRun.get forwardingRun_isSome).2
          { uplinkPacket with tunnel := none } "r" "s" = some (d, q') ∧
        Refused (forwardingRun.get forwardingRun_isSome).2 d q' :=
  @forwarded_once dottedText {} {} _ _ (reachable_of_isSome forwardingRun_isSome)
    (reachable_of_isSome forwardingRun_isSome) .n6 _ (by decide +kernel) "r" "s"

end PacketPipeline

end UpfPolicy
