/-
UpfPolicy.Application.ExplanationTheorems — the candidates of a decision
explain its winner.

A packet that is tried gets a decision with one candidate for each PDR, in
the order of the PDR IDs; the stages after the selection leave candidates
and winner as they are (`enforce_selection`). Together with
`RuleSetValid.selectPdr_winner` this is `process_explained`: the winner can
be read off the candidates as the matched one of strictly least precedence,
and the result is NO_MATCH exactly when no candidate matched.
-/
import UpfPolicy.Application.OrderTheorems
import UpfPolicy.Application.VerdictTheorems

namespace UpfPolicy

open Support

/-! ## Candidates -/

section Candidates

variable [InetText]

/-- `matched` is the conjunction of the criteria. -/
theorem evaluateCandidate_conjunction (pdr : Pdr) (packet : Packet) :
    (evaluateCandidate pdr packet).matched
      = (evaluateCandidate pdr packet).criteria.all (·.matched) := by
  simp only [evaluateCandidate, List.all_cons, List.all_nil, Bool.and_true, Bool.and_assoc]

theorem sortCandidates_selectPdr (pdrs : List Pdr) (packet : Packet) :
    (PacketPipeline.sortCandidates (PacketPipeline.selectPdr pdrs packet).1).Perm
      (pdrs.map (evaluateCandidate · packet)) := by
  rw [selectPdr_eq]
  exact List.perm_insertionSort _ _

omit [InetText] in
/-- Candidates with distinct PDR IDs are sorted strictly. -/
theorem sortCandidates_increasing {cs : List MatchCandidate} (hnd : (cs.map (·.pdrId)).Nodup) :
    ((PacketPipeline.sortCandidates cs).map (·.pdrId)).Pairwise (· < ·) := by
  have hperm := List.perm_insertionSort (fun a b : MatchCandidate => a.pdrId ≤ b.pdrId) cs
  have hsorted := List.pairwise_insertionSort (fun a b : MatchCandidate => a.pdrId ≤ b.pdrId) cs
  have hdistinct : ((PacketPipeline.sortCandidates cs).map (·.pdrId)).Nodup :=
    (hperm.map _).nodup_iff.mpr hnd
  rw [List.pairwise_map]
  have hne := List.pairwise_map.mp hdistinct
  refine (List.Pairwise.and hsorted hne).imp ?_
  intro a b hab
  exact UInt32.lt_of_le_of_ne hab.1 hab.2

end Candidates

/-! ## The stages keep the selection -/

/-- The decision has the selection of the other, and does not say that
nothing matched. -/
structure SelectionKept (d d' : PacketDecision) : Prop where
  candidates : d'.candidates = d.candidates
  selectedPdrId : d'.selectedPdrId = d.selectedPdrId
  matched : d'.terminalResult ≠ .noMatch

/-- A stage may change other fields first. -/
theorem SelectionKept.after {d e d' : PacketDecision} (h : SelectionKept e d')
    (hcandidates : e.candidates = d.candidates) (hselected : e.selectedPdrId = d.selectedPdrId) :
    SelectionKept d d' :=
  ⟨h.candidates.trans hcandidates, h.selectedPdrId.trans hselected, h.matched⟩

section Stages

variable {v : View} {rules : RuleSet} {packet : Packet} {winner : Pdr} {far : Far}
  {d : PacketDecision} {planned : Effect}

theorem commit_selection (evaluation : FarEvaluation) :
    SelectionKept d (v.commit d far evaluation planned).decision := by
  unfold View.commit
  split
  · exact ⟨rfl, rfl, nofun⟩
  · split
    · exact ⟨rfl, rfl, nofun⟩
    · refine ⟨rfl, rfl, ?_⟩
      cases evaluation.destination <;> exact nofun

theorem account_selection :
    SelectionKept d (v.account rules packet winner d far planned).decision := by
  unfold View.account
  cases citedUrr rules winner with
  | none => exact commit_selection _
  | some urr =>
    dsimp only
    split
    · exact ⟨rfl, rfl, nofun⟩
    · split
      · exact ⟨rfl, rfl, nofun⟩
      · exact (commit_selection _).after rfl rfl

theorem enforce_selection : SelectionKept d (v.enforce rules packet winner d far).decision := by
  unfold View.enforce View.resolve
  cases citedQer rules winner with
  | none => exact account_selection.after rfl rfl
  | some qer =>
    dsimp only
    have hfailure := evaluateQer_failure qer (v.tokens qer.id.value) packet.payloadBytes.toUInt64
      packet.arrivalTimeMicros
    split
    · exact account_selection.after rfl rfl
    · rename_i hdenied
      refine ⟨rfl, rfl, ?_⟩
      rcases hfailure (by simpa using hdenied) with h | h | h <;> simp [h]

end Stages

/-! ## The explanation -/

/-- What the candidates of a decision say about the rules, the packet and
the winner. -/
structure Explained [InetText] (rules : RuleSet) (packet : Packet) (d : PacketDecision) : Prop where
  onePerPdr : d.candidates.Perm (rules.pdrs.map (evaluateCandidate · packet))
  increasing : (d.candidates.map (·.pdrId)).Pairwise (· < ·)
  conjunction : ∀ c ∈ d.candidates, c.matched = c.criteria.all (·.matched)
  unselected : d.selectedPdrId = 0 ↔ ∀ c ∈ d.candidates, c.matched = false
  noMatch : d.terminalResult = .noMatch ↔ ∀ c ∈ d.candidates, c.matched = false
  selected : (∃ c ∈ d.candidates, c.matched = true) →
    ∃ w ∈ d.candidates, w.matched = true ∧ w.pdrId = d.selectedPdrId ∧
      ∀ c ∈ d.candidates, c.matched = true → c ≠ w → w.precedence < c.precedence

section Verdicts

variable [InetText] {rules : RuleSet} {limits : CapacityLimits} {packet : Packet}
  {d : PacketDecision}

/-- The part of the explanation that is about the candidates alone. -/
theorem mem_candidates
    (hd : d.candidates = PacketPipeline.sortCandidates (PacketPipeline.selectPdr rules.pdrs packet).1)
    {c : MatchCandidate} :
    c ∈ d.candidates ↔ ∃ pdr ∈ rules.pdrs, c = evaluateCandidate pdr packet := by
  rw [hd, (sortCandidates_selectPdr rules.pdrs packet).mem_iff, List.mem_map]
  constructor
  · rintro ⟨pdr, hmem, rfl⟩
    exact ⟨pdr, hmem, rfl⟩
  · rintro ⟨pdr, hmem, rfl⟩
    exact ⟨pdr, hmem, rfl⟩

theorem RuleSetValid.increasing (h : RuleSetValid rules limits) (packet : Packet) :
    ((PacketPipeline.sortCandidates (PacketPipeline.selectPdr rules.pdrs packet).1).map
      (·.pdrId)).Pairwise (· < ·) := by
  refine sortCandidates_increasing ?_
  rw [selectPdr_eq, List.map_map]
  exact h.pdrIds.nodup

theorem explained_noMatch (h : RuleSetValid rules limits)
    (hd : d.candidates = PacketPipeline.sortCandidates (PacketPipeline.selectPdr rules.pdrs packet).1)
    (hid : d.selectedPdrId = 0) (hresult : d.terminalResult = .noMatch)
    (hnone : ∀ pdr ∈ rules.pdrs, ¬ PdrMatches pdr packet) : Explained rules packet d := by
  have hall : ∀ c ∈ d.candidates, c.matched = false := by
    intro c hc
    obtain ⟨pdr, hmem, rfl⟩ := (mem_candidates hd).mp hc
    rw [← Bool.not_eq_true, evaluateCandidate_matched_iff]
    exact hnone pdr hmem
  refine ⟨hd ▸ sortCandidates_selectPdr _ _, hd ▸ h.increasing packet, ?_, ?_, ?_, ?_⟩
  · intro c hc
    obtain ⟨pdr, -, rfl⟩ := (mem_candidates hd).mp hc
    exact evaluateCandidate_conjunction pdr packet
  · exact iff_of_true hid hall
  · exact iff_of_true hresult hall
  · rintro ⟨c, hc, hmatched⟩
    rw [hall c hc] at hmatched
    cases hmatched

/-- The candidate of the winner is the one of strictly least precedence: two
matched candidates of one precedence would come from overlapping PDRs. -/
theorem explained_winner (h : RuleSetValid rules limits) {winner : Pdr}
    (hd : d.candidates = PacketPipeline.sortCandidates (PacketPipeline.selectPdr rules.pdrs packet).1)
    (hid : d.selectedPdrId = winner.id.value) (hresult : d.terminalResult ≠ .noMatch)
    (hsel : Selects rules packet winner) : Explained rules packet d := by
  have hmem : evaluateCandidate winner packet ∈ d.candidates :=
    (mem_candidates hd).mpr ⟨winner, hsel.mem, rfl⟩
  have hmatched : (evaluateCandidate winner packet).matched = true :=
    (evaluateCandidate_matched_iff winner packet).mpr hsel.matched
  have hnot : ¬ ∀ c ∈ d.candidates, c.matched = false := by
    intro hall
    rw [hall _ hmem] at hmatched
    cases hmatched
  have hnonzero : d.selectedPdrId ≠ 0 := by
    rw [hid]
    exact bne_iff_ne.mp (h.pdrIds.valid winner hsel.mem)
  refine ⟨hd ▸ sortCandidates_selectPdr _ _, hd ▸ h.increasing packet, ?_, ?_, ?_, ?_⟩
  · intro c hc
    obtain ⟨pdr, -, rfl⟩ := (mem_candidates hd).mp hc
    exact evaluateCandidate_conjunction pdr packet
  · exact iff_of_false hnonzero hnot
  · exact iff_of_false hresult hnot
  · intro _
    refine ⟨_, hmem, hmatched, hid.symm, ?_⟩
    intro c hc hcm hne
    obtain ⟨pdr, hpdr, rfl⟩ := (mem_candidates hd).mp hc
    have hpm := (evaluateCandidate_matched_iff pdr packet).mp hcm
    have hle := hsel.least pdr hpdr hpm
    refine UInt32.lt_iff_toNat_lt.mpr (Nat.lt_of_le_of_ne hle ?_)
    intro hprec
    rw [h.precedence_inj hsel.mem hpdr hsel.matched hpm hprec] at hne
    exact hne rfl

end Verdicts

namespace PacketPipeline

section Process

variable [InetText] {p : PacketPipeline} {rules : RuleSet} {packet : Packet}

/-- The verdict over a well-formed packet of the session is explained. -/
theorem WellFormed.verdict_explained (h : p.WellFormed) (hrules : p.rules = some rules)
    (hvalid : validPacket packet = true) (hsession : packet.sessionId = rules.sessionId)
    (runId scenarioId : String) :
    Explained rules packet (p.verdict packet runId scenarioId).decision := by
  have hset := h.valid rules hrules
  have hgood : ¬ (!validPacket packet || packet.sessionId != rules.sessionId) = true := by
    simp [hvalid, hsession]
  unfold verdict
  rw [hrules]
  dsimp only
  rw [if_neg hgood]
  cases hwinner : (selectPdr rules.pdrs packet).2 with
  | none =>
    exact explained_noMatch hset rfl rfl rfl ((selectPdr_eq_none_iff rules packet).mp hwinner)
  | some winner =>
    have hsel := (hset.selectPdr_winner packet winner).mp hwinner
    obtain ⟨far, hfar, -⟩ := hset.winner_far hsel
    dsimp only
    rw [hfar]
    have hkept : SelectionKept
        { p.triedDecision packet runId scenarioId rules with selectedPdrId := winner.id.value }
        (p.view.enforce rules packet winner _ far).decision := enforce_selection
    exact explained_winner hset hkept.candidates hkept.selectedPdrId hkept.matched hsel

/-- Recording a decision keeps its explanation. -/
theorem retain_explained {d : PacketDecision} (h : Explained rules packet d) :
    Explained rules packet (p.retain d).1 := by
  unfold retain
  split
  · exact h
  · exact { h with }

end Process

/-- **Selection is correct and fully explained** in every reachable pipeline
with room for the result. -/
theorem process_explained [InetText] {limits : CapacityLimits} {p : PacketPipeline}
    (hreach : Reachable exec (new limits) p) {rules : RuleSet} (hrules : p.rules = some rules)
    (hroom : p.decisions.length < p.limits.results.toNat) {packet : Packet}
    (hvalid : validPacket packet = true) (hsession : packet.sessionId = rules.sessionId)
    (runId scenarioId : String) :
    ∃ d p', p.process packet runId scenarioId = some (d, p') ∧ Explained rules packet d := by
  have hwell := wellFormed_of_reachable hreach
  have hverdict := hwell.verdict_explained hrules hvalid hsession runId scenarioId
  exact ⟨_, _, hwell.process_eq hroom, retain_explained hverdict⟩

/-- Both PDRs match, and the one of precedence 100 wins over that of 200. -/
theorem process_explained_broad :
    ∃ d p', @process dottedText ((new {}).install broadRules).2 uplinkPacket "r" "s" = some (d, p') ∧
      d.candidates.map (fun c => (c.pdrId, c.precedence, c.matched))
        = [(10, 100, true), (11, 200, true)] ∧
      d.selectedPdrId = 10 ∧ @Explained dottedText broadRules uplinkPacket d := by
  have hreach : Reachable (@exec dottedText) (new {}) ((new {}).install broadRules).2 :=
    ⟨[.install broadRules], _, rfl⟩
  have hrules : ((new {}).install broadRules).2.rules = some broadRules := rfl
  obtain ⟨d, p', hprocess, hexplained⟩ := @process_explained dottedText {} _ hreach broadRules hrules
    (by decide +kernel) uplinkPacket (by decide +kernel) (by decide +kernel) "r" "s"
  have hchoice : (@process dottedText ((new {}).install broadRules).2 uplinkPacket "r" "s").map
      (fun out => (out.1.candidates.map (fun c => (c.pdrId, c.precedence, c.matched)),
        out.1.selectedPdrId)) = some ([(10, 100, true), (11, 200, true)], 10) := by decide +kernel
  rw [hprocess] at hchoice
  obtain ⟨hcandidates, hselected⟩ := Prod.mk.inj (Option.some.inj hchoice)
  exact ⟨d, p', hprocess, hcandidates, hselected, hexplained⟩

end PacketPipeline

end UpfPolicy
