/-
UpfPolicy.Application.DeliveryTheorems — what reaches the sinks.

`validateRuleSet` checks, for each PDR, that its FAR fits the direction of
the PDR. A FAR may be shared, so the check is about the pair; a matching
PDR has the direction of the packet, so it is the pair that counts when
the FAR is applied (`FarFits.transformed`). Three results follow:

  * `lookups_safe` — the lookups `process` dereferences succeed, the FAR
    step is valid, and a packet that matched is never malformed;
  * `sinks_exact` — over any run the sinks are the lists of transformed
    packets that the decisions report, in order;
  * the packets in a sink have the direction and the tunnel of that sink,
    and are otherwise the processed packets.
-/
import UpfPolicy.Application.VerdictTheorems

namespace UpfPolicy

open Support

namespace PacketPipeline

/-! ## Deliveries of one call -/

/-- The packet a call delivered with a given result. -/
def deliveredAs (result : TerminalResult) (e : PipelineEvent) : Option Packet :=
  match e.output with
  | .installed _ => none
  | .decided d => if d.terminalResult = result then d.transformedPacket else none

/-- The marks of a delivery in a decision coincide. -/
structure MarksCoincide (d : PacketDecision) : Prop where
  sink : d.sinkPresent = true ↔
    d.terminalResult = .forwardedToN3 ∨ d.terminalResult = .forwardedToN6
  transformed : d.transformedPresent = d.sinkPresent
  content : d.transformedPacket.isSome = d.transformedPresent

/-- A packet decapsulated on its way from N3 to N6. -/
structure SentUplink (out : Packet) : Prop where
  ingress : out.ingress = .n3
  tunnel : out.tunnel = none

/-- A packet put into a tunnel on its way from N6 to N3. -/
structure SentDownlink (out : Packet) : Prop where
  ingress : out.ingress = .n6
  tunnel : ∃ t, out.tunnel = some t ∧ t.teid ≠ 0 ∧ 1 ≤ t.qfi.toNat ∧ t.qfi.toNat ≤ 63

/-- What one call does to the sinks, and says of it. -/
structure Delivers (e : PipelineEvent) : Prop where
  n6 : e.after.n6Sink = e.before.n6Sink ++ (deliveredAs .forwardedToN6 e).toList
  n3 : e.after.n3Sink = e.before.n3Sink ++ (deliveredAs .forwardedToN3 e).toList
  marks : ∀ d, e.output = .decided d → MarksCoincide d
  uplink : ∀ out, deliveredAs .forwardedToN6 e = some out → SentUplink out
  downlink : ∀ out, deliveredAs .forwardedToN3 e = some out → SentDownlink out
  content : ∀ packet runId scenarioId d out, e.input = .process packet runId scenarioId →
    e.output = .decided d → d.transformedPacket = some out →
      { out with tunnel := packet.tunnel } = packet

section Reported

variable {r : Verdict} (h : Reported r)

include h

theorem Reported.sentTo (side : Interface) :
    (if r.decision.terminalResult = forwardedTo side then r.decision.transformedPacket
      else none).toList = r.effect.sentTo side := by
  rw [h.content, Effect.sentTo]
  cases hsent : r.effect.sent with
  | none => simp
  | some sent =>
    obtain ⟨destination, out⟩ := sent
    have hresult := h.result side
    rw [hsent] at hresult
    simp only [hresult, Option.map_some, Option.some.injEq]
    split <;> rfl

theorem Reported.marks : MarksCoincide r.decision := by
  refine ⟨?_, h.transformed.trans h.present.symm, ?_⟩
  · rw [h.present]
    have hn3 := h.result .n3
    have hn6 := h.result .n6
    simp only [forwardedTo] at hn3 hn6
    rw [hn3, hn6]
    cases r.effect.sent with
    | none => simp
    | some sent =>
      obtain ⟨destination, out⟩ := sent
      cases destination <;> simp
  · rw [h.content, h.transformed, Option.isSome_map]

end Reported

section Transformed

variable {packet out : Packet}

theorem ingress_of_opposite {side : Interface} (h : side = packet.ingress.opposite) :
    packet.ingress = side.opposite := by
  subst h
  cases packet.ingress <;> rfl

theorem sentUplink_of_transformed (h : Transformed packet .n6 out) : SentUplink out := by
  have hingress : packet.ingress = .n3 := ingress_of_opposite h.side_eq
  refine ⟨?_, h.uplink hingress⟩
  rw [← hingress, ← congrArg Packet.ingress h.same]

theorem sentDownlink_of_transformed (h : Transformed packet .n3 out) : SentDownlink out := by
  have hingress : packet.ingress = .n6 := ingress_of_opposite h.side_eq
  obtain ⟨t, htunnel, hvalid⟩ := h.downlink hingress
  refine ⟨?_, t, htunnel, ?_⟩
  · rw [← hingress, ← congrArg Packet.ingress h.same]
  · simpa [TunnelMetadata.valid, and_assoc, UInt8.le_iff_toNat_le] using hvalid

end Transformed

/-! ## Deliveries of a run -/

section Runs

variable [InetText] {p : PacketPipeline}

omit [InetText] in
/-- The deliveries of a settled verdict. -/
theorem settle_delivers {packet : Packet} {runId scenarioId : String} {r : Verdict}
    (hreported : Reported r)
    (hsent : ∀ side out, r.effect.sent = some (side, out) → Transformed packet side out) :
    Delivers ⟨p, .process packet runId scenarioId, .decided (p.settle r).1, (p.settle r).2⟩ := by
  have hdelivered : ∀ side, deliveredAs (forwardedTo side)
      ⟨p, .process packet runId scenarioId, .decided (p.settle r).1, (p.settle r).2⟩
        = if r.decision.terminalResult = forwardedTo side then r.decision.transformedPacket
          else none := by
    intro side
    simp [deliveredAs, settle]
  have hpacket : ∀ side out, deliveredAs (forwardedTo side)
      ⟨p, .process packet runId scenarioId, .decided (p.settle r).1, (p.settle r).2⟩ = some out →
        Transformed packet side out := by
    intro side out hout
    rw [hdelivered side] at hout
    split at hout
    · rename_i hresult
      rw [hreported.result] at hresult
      rw [hreported.content] at hout
      obtain ⟨⟨destination, out'⟩, hmem, rfl⟩ := Option.map_eq_some_iff.mp hout
      rw [hmem] at hresult
      cases hresult
      exact hsent _ _ hmem
    · cases hout
  refine ⟨?_, ?_, ?_, ?_, ?_, ?_⟩
  · show (p.settle r).2.n6Sink = p.n6Sink ++ (deliveredAs (forwardedTo .n6) _).toList
    rw [hdelivered .n6, hreported.sentTo .n6]
    simp [settle]
  · show (p.settle r).2.n3Sink = p.n3Sink ++ (deliveredAs (forwardedTo .n3) _).toList
    rw [hdelivered .n3, hreported.sentTo .n3]
    simp [settle]
  · intro d hd
    cases hd
    have hmarks := hreported.marks
    exact ⟨by simpa [settle] using hmarks.sink, by simpa [settle] using hmarks.transformed,
      by simpa [settle] using hmarks.content⟩
  · exact fun out hout => sentUplink_of_transformed (hpacket .n6 out hout)
  · exact fun out hout => sentDownlink_of_transformed (hpacket .n3 out hout)
  · intro packet' runId' scenarioId' d out hcall hd hout
    cases hcall
    cases hd
    simp only [settle, retain_transformedPacket, hreported.content] at hout
    obtain ⟨⟨side, out'⟩, hmem, rfl⟩ := Option.map_eq_some_iff.mp hout
    exact (hsent _ _ hmem).same

/-- **Every call delivers what its decision says.** -/
theorem WellFormed.delivers (h : p.WellFormed) {call : PipelineCall} {reply : PipelineReply}
    {p' : PacketPipeline} (hexec : p.exec call = some (reply, p')) :
    Delivers ⟨p, call, reply, p'⟩ := by
  cases h.answered hexec with
  | @installed rules result hcall hreply houtcome =>
    subst hcall hreply
    have hsinks : p'.n6Sink = p.n6Sink ∧ p'.n3Sink = p.n3Sink := by
      cases houtcome with
      | rejected _ _ hkept => subst hkept; exact ⟨rfl, rfl⟩
      | accepted _ _ hinstalled => subst hinstalled; exact ⟨rfl, rfl⟩
    refine ⟨by simpa [deliveredAs] using hsinks.1, by simpa [deliveredAs] using hsinks.2, ?_, ?_,
      ?_, ?_⟩
    · intro d hd; cases hd
    · intro out hout; cases hout
    · intro out hout; cases hout
    · intro _ _ _ _ _ _ hd; cases hd
  | full hcall _ hreply hafter =>
    subst hcall hreply hafter
    refine ⟨by simp [deliveredAs], by simp [deliveredAs], ?_, ?_, ?_, ?_⟩
    · intro d hd
      cases hd
      exact ⟨by simp [header], rfl, rfl⟩
    · intro out hout; cases hout
    · intro out hout; cases hout
    · intro packet' runId' scenarioId' d out _ hd hout
      cases hd
      simp [header] at hout
  | @settled packet runId scenarioId hcall _ hreply hafter =>
    subst hcall hreply hafter
    cases h.judged packet runId scenarioId with
    | untried _ heffect hreported =>
      exact settle_delivers hreported fun side out hsent => by rw [heffect] at hsent; cases hsent
    | tried _ _ hruling =>
      exact settle_delivers hruling.toReported fun side out hsent => (hruling.sent side out hsent).2

/-- What holds of the sinks after a run. -/
structure SinksExact (es : List PipelineEvent) (p : PacketPipeline) : Prop where
  n6 : p.n6Sink = es.filterMap (deliveredAs .forwardedToN6)
  n3 : p.n3Sink = es.filterMap (deliveredAs .forwardedToN3)
  marks : ∀ e ∈ es, ∀ d, e.output = .decided d → MarksCoincide d
  uplink : ∀ out ∈ p.n6Sink, SentUplink out
  downlink : ∀ out ∈ p.n3Sink, SentDownlink out
  content : ∀ e ∈ es, ∀ packet runId scenarioId d out, e.input = .process packet runId scenarioId →
    e.output = .decided d → d.transformedPacket = some out →
      { out with tunnel := packet.tunnel } = packet

omit [InetText] in
theorem SinksExact.snoc {es : List PipelineEvent} (h : SinksExact es p) {e : PipelineEvent}
    (hbefore : e.before = p) (he : Delivers e) : SinksExact (es ++ [e]) e.after := by
  refine ⟨?_, ?_, forall_mem_snoc h.marks he.marks, ?_, ?_, forall_mem_snoc h.content he.content⟩
  · rw [he.n6, hbefore, h.n6, List.filterMap_append]
    cases hd : deliveredAs .forwardedToN6 e <;> simp [hd]
  · rw [he.n3, hbefore, h.n3, List.filterMap_append]
    cases hd : deliveredAs .forwardedToN3 e <;> simp [hd]
  · intro out hout
    rw [he.n6, hbefore] at hout
    rcases List.mem_append.mp hout with hout | hout
    · exact h.uplink out hout
    · exact he.uplink out (Option.mem_toList.mp hout)
  · intro out hout
    rw [he.n3, hbefore] at hout
    rcases List.mem_append.mp hout with hout | hout
    · exact h.downlink out hout
    · exact he.downlink out (Option.mem_toList.mp hout)

theorem sinksExact_of_recorded {limits : CapacityLimits} {es : List PipelineEvent}
    (h : Recorded PacketPipeline.exec (new limits) es p) : SinksExact es p := by
  induction h with
  | nil => exact ⟨rfl, rfl, by simp, by simp [new], by simp [new], by simp⟩
  | snoc hrec hexec ih => exact ih.snoc rfl ((wellFormed_of_recorded hrec).delivers hexec)

/-- **The sinks hold exactly the forwarded packets, correctly transformed**:
over every sequence of calls they are the lists of transformed packets of
the decisions forwarded to them, in order; the marks of a delivery coincide
on every decision; and every packet in a sink has the direction and tunnel
of the sink and is otherwise the packet processed. -/
theorem sinks_exact (limits : CapacityLimits) (calls : List PipelineCall) :
    ∃ es p, run PacketPipeline.exec (new limits) calls = some (es, p) ∧ SinksExact es p := by
  obtain ⟨es, p, hrun⟩ := (wellFormed_new limits).run_total calls
  exact ⟨es, p, hrun, sinksExact_of_recorded (recorded_of_run hrun)⟩

end Runs

/-! ## Lookups -/

section Lookups

variable [InetText] {p : PacketPipeline} {limits : CapacityLimits}

/-- What the winner of an installed ruleset may be dereferenced for. -/
structure LookupsSafe (rules : RuleSet) (packet : Packet) (winner : Pdr) : Prop where
  far : ∃ far, findFar rules winner.farId = some far ∧ (evaluateFar far packet).valid = true
  qer : ∀ id, winner.qerId = some id → ∃ qer, findQer rules id = some qer
  urr : ∀ id, winner.urrId = some id → ∃ urr, findUrr rules id = some urr

theorem lookupsSafe_of_selected {rules : RuleSet} (h : RuleSetValid rules limits) {packet : Packet}
    {winner : Pdr} (hwinner : (selectPdr rules.pdrs packet).2 = some winner) :
    LookupsSafe rules packet winner := by
  have hsel := (h.selectPdr_winner packet winner).mp hwinner
  have hrefs := validatePdr_ok (h.pdrOk winner hsel.mem)
  obtain ⟨far, hfar, hresolved⟩ := h.winner_far hsel
  exact ⟨⟨far, hfar, hresolved.valid⟩, hrefs.qer, hrefs.urr⟩

/-- A packet that is tried is not malformed. -/
theorem WellFormed.formed (h : p.WellFormed) {packet : Packet} {runId scenarioId : String}
    {d : PacketDecision} {p' : PacketPipeline}
    (hprocess : p.process packet runId scenarioId = some (d, p'))
    (htried : p.triedWinner packet ≠ none) : d.terminalResult ≠ .malformedPacket := by
  by_cases hfull : p.limits.results.toNat ≤ p.decisions.length
  · rw [process_of_full hfull] at hprocess
    cases hprocess
    exact nofun
  · rw [h.process_eq (Nat.not_le.mp hfull)] at hprocess
    have hd : (p.settle (p.verdict packet runId scenarioId)).1 = d :=
      congrArg Prod.fst (Option.some.inj hprocess)
    rw [← hd]
    cases h.judged packet runId scenarioId with
    | untried hnone _ _ => exact absurd hnone htried
    | tried _ _ hruling => simpa [settle] using hruling.formed

/-- **Validated rulesets make the lookups and the FAR step safe**: in every
state a sequence of calls reaches, `process` returns on every packet; the
lookups for the winner succeed and its FAR evaluates; and a valid packet of
the session that matches a PDR does not end as malformed. -/
theorem lookups_safe (h : Reachable PacketPipeline.exec (new limits) p) (packet : Packet)
    (runId scenarioId : String) :
    ∃ d p', p.process packet runId scenarioId = some (d, p') ∧
      ∀ rules, p.rules = some rules →
        (∀ winner, (selectPdr rules.pdrs packet).2 = some winner →
          LookupsSafe rules packet winner) ∧
        (validPacket packet = true → packet.sessionId = rules.sessionId →
          (∃ pdr ∈ rules.pdrs, (evaluateCandidate pdr packet).matched = true) →
            d.terminalResult ≠ .malformedPacket) := by
  have hwf := wellFormed_of_reachable h
  obtain ⟨d, p', hprocess, -, -⟩ := hwf.process_exit packet runId scenarioId
  refine ⟨d, p', hprocess, fun rules hrules => ⟨fun winner hwinner => ?_, ?_⟩⟩
  · exact lookupsSafe_of_selected (hwf.valid rules hrules) hwinner
  · intro hvalid hsession hmatched
    refine hwf.formed hprocess ?_
    obtain ⟨pdr, hpdr, hm⟩ := hmatched
    have hsome : (selectPdr rules.pdrs packet).2 ≠ none := by
      rw [Ne, selectPdr_eq_none_iff]
      exact fun hnone => hnone pdr hpdr ((evaluateCandidate_matched_iff pdr packet).mp hm)
    rw [triedWinner, hrules, Option.bind_some]
    simp [hvalid, hsession, hsome]

end Lookups

theorem uplink_selected :
    (@selectPdr dottedText basicRules.pdrs uplinkPacket).2.isSome = true := by decide +kernel

theorem lookups_safe_uplink :
    ∃ d p', @process dottedText ((new {}).install basicRules).2 uplinkPacket "r" "s" = some (d, p') ∧
      LookupsSafe basicRules uplinkPacket
        ((@selectPdr dottedText basicRules.pdrs uplinkPacket).2.get uplink_selected) ∧
      d.terminalResult ≠ .malformedPacket := by
  obtain ⟨d, p', hprocess, hrules⟩ := @lookups_safe dottedText ((new {}).install basicRules).2 {}
    ⟨[.install basicRules], _, rfl⟩ uplinkPacket "r" "s"
  obtain ⟨hsafe, hformed⟩ := hrules basicRules rfl
  refine ⟨d, p', hprocess, hsafe _ (Option.some_get uplink_selected).symm, ?_⟩
  exact hformed (by decide) rfl ⟨basicRules.pdrs.head (by decide), List.head_mem _, by decide +kernel⟩

end PacketPipeline

end UpfPolicy
