/-
UpfPolicy.Application.PdrChangeTheorems — what a change of the PDRs does.

The PDRs take part in the treatment of a packet through `selectPdr` only:
as candidates, and as the winner, of which no more is read than its ID and
the rules it cites (`Pdr.treatment`). So two rulesets whose winners have the
same treatment treat a packet alike, and the list of candidates is the only
trace of the difference. `PdrChange` is that for the packets of a scope,
with what is known of the candidates as a relation; `Changed` carries it
from call to call.
-/
import UpfPolicy.Application.ObservationTheorems
import UpfPolicy.Application.OrderTheorems

namespace UpfPolicy

open Support

/-- What `process` reads of a winner. -/
def Pdr.treatment (pdr : Pdr) : PdrId × FarId × Option QerId × Option UrrId :=
  (pdr.id, pdr.farId, pdr.qerId, pdr.urrId)

namespace PacketPipeline

/-! ## One packet -/

/-- A decision with other candidates. -/
def withCandidates (cs : List MatchCandidate) (d : PacketDecision) : PacketDecision :=
  { d with candidates := cs }

section Verdicts

variable {v : View} {rules : RuleSet} {packet : Packet} {winner : Pdr} {far : Far}

/-- The stages do not read the candidates. -/
theorem commit_candidates (cs : List MatchCandidate) (d : PacketDecision) (e : FarEvaluation)
    (planned : Effect) :
    v.commit (withCandidates cs d) far e planned
      = ⟨withCandidates cs (v.commit d far e planned).decision,
        (v.commit d far e planned).effect⟩ := by
  unfold View.commit
  split
  · rfl
  · split
    · rfl
    · rfl

theorem account_candidates (cs : List MatchCandidate) (d : PacketDecision) (planned : Effect) :
    v.account rules packet winner (withCandidates cs d) far planned
      = ⟨withCandidates cs (v.account rules packet winner d far planned).decision,
        (v.account rules packet winner d far planned).effect⟩ := by
  unfold View.account
  cases citedUrr rules winner with
  | none => exact commit_candidates ..
  | some urr =>
    dsimp only
    split
    · rfl
    · split
      · rfl
      · exact commit_candidates cs { d with urr := _ } _ _

theorem enforce_candidates (cs : List MatchCandidate) (d : PacketDecision) :
    v.enforce rules packet winner (withCandidates cs d) far
      = ⟨withCandidates cs (v.enforce rules packet winner d far).decision,
        (v.enforce rules packet winner d far).effect⟩ := by
  unfold View.enforce View.resolve
  cases citedQer rules winner with
  | none => exact account_candidates cs { d with qer := _, far := _ } _
  | some qer =>
    dsimp only
    split
    · exact account_candidates cs { d with qer := _, far := _ } _
    · rfl

theorem candidates_enforce (d : PacketDecision) :
    (v.enforce rules packet winner d far).decision.candidates = d.candidates :=
  congrArg (fun r : Verdict => r.decision.candidates) (enforce_candidates d.candidates d)

end Verdicts

/-- The stages read a winner through its treatment. -/
theorem enforce_treatment (v : View) {rules rules' : RuleSet} (hrules : rules' = { rules with pdrs := rules'.pdrs })
    {winner winner' : Pdr} (hsame : winner'.treatment = winner.treatment) (packet : Packet)
    (d : PacketDecision) (far : Far) :
    v.enforce rules' packet winner' d far = v.enforce rules packet winner d far := by
  simp only [Pdr.treatment, Prod.mk.injEq] at hsame
  obtain ⟨-, -, hqer, hurr⟩ := hsame
  rw [hrules]
  unfold View.enforce View.resolve View.account citedQer citedUrr
  rw [hqer, hurr]
  rfl

/-! ## Two rulesets -/

section Change

variable [InetText]

/-- Two lists of candidates for one packet. -/
abbrev CandidateRelation := List MatchCandidate → List MatchCandidate → Prop

/-- The second ruleset has other PDRs. It is valid when the first one is,
its candidates are related to the other ones, and for the packets in scope
its winner gets the same treatment. -/
structure PdrChange (R : CandidateRelation) (scope : Packet → Prop) (limits : CapacityLimits)
    (rules rules' : RuleSet) : Prop where
  rest : rules' = { rules with pdrs := rules'.pdrs }
  valid : RuleSetValid rules limits ↔ RuleSetValid rules' limits
  candidates : ∀ packet, RuleSetValid rules limits →
    R (sortCandidates (selectPdr rules.pdrs packet).1) (sortCandidates (selectPdr rules'.pdrs packet).1)
  winner : ∀ packet, scope packet →
    (selectPdr rules'.pdrs packet).2.map Pdr.treatment
      = (selectPdr rules.pdrs packet).2.map Pdr.treatment

/-- A decision apart from its candidates, which are related. -/
structure CandidatesRelated (R : CandidateRelation) (d d' : PacketDecision) : Prop where
  same : d' = withCandidates d'.candidates d
  related : R d.candidates d'.candidates

/-- Two pipelines whose rules differ by a change of the PDRs. -/
structure Changed (R : CandidateRelation) (scope : Packet → Prop) (limits : CapacityLimits)
    (p p' : PacketPipeline) : Prop where
  rules : Option.Rel (PdrChange R scope limits) p.rules p'.rules
  limits : p.limits = limits
  left : p.WellFormed
  right : p'.WellFormed
  rest : p' = { p with rules := p'.rules, decisions := p'.decisions }
  decisions : List.Forall₂ (CandidatesRelated R) p.decisions p'.decisions

section Step

variable {R : CandidateRelation} {scope : Packet → Prop} {limits : CapacityLimits}
  {p p' : PacketPipeline}

theorem changed_new (R : CandidateRelation) (scope : Packet → Prop) (limits : CapacityLimits) :
    Changed R scope limits (new limits) (new limits) :=
  ⟨.none, rfl, wellFormed_new limits, wellFormed_new limits, rfl, .nil⟩

theorem Changed.view (h : Changed R scope limits p p') : p'.view = p.view := by
  rw [h.rest]
  rfl

/-- The header reads the version of the ruleset only. -/
theorem Changed.header (h : Changed R scope limits p p') (packet : Packet)
    (runId scenarioId : String) :
    p'.header packet runId scenarioId = p.header packet runId scenarioId := by
  have hslots := h.rules
  unfold PacketPipeline.header
  generalize p.rules = slot at hslots ⊢
  generalize p'.rules = slot' at hslots ⊢
  cases hslots with
  | none => rfl
  | some hchange =>
    rw [hchange.rest]
    rfl

/-- **One verdict**: the same effect, and the same decision apart from its
candidates. -/
theorem Changed.verdict (h : Changed R scope limits p p') (hempty : R [] [])
    {packet : Packet} (hscope : scope packet) (runId scenarioId : String) :
    ∃ cs, R (p.verdict packet runId scenarioId).decision.candidates cs ∧
      p'.verdict packet runId scenarioId
        = ⟨withCandidates cs (p.verdict packet runId scenarioId).decision,
          (p.verdict packet runId scenarioId).effect⟩ := by
  have hheader := h.header packet runId scenarioId
  have hblank : R (p.header packet runId scenarioId).candidates
      (p.header packet runId scenarioId).candidates := hempty
  have hslots := h.rules
  have hvalid := h.left.valid
  rw [h.limits] at hvalid
  unfold PacketPipeline.verdict PacketPipeline.triedDecision
  rw [hheader, h.view]
  generalize p.header packet runId scenarioId = d at hblank ⊢
  generalize p.rules = slot at hslots hvalid ⊢
  generalize p'.rules = slot' at hslots ⊢
  cases hslots with
  | none => exact ⟨_, hblank, rfl⟩
  | @some rules rules' hchange =>
    have hsession : rules'.sessionId = rules.sessionId := by rw [hchange.rest]
    dsimp only
    rw [hsession]
    split
    · exact ⟨_, hblank, rfl⟩
    · have hcandidates := hchange.candidates packet (hvalid rules rfl)
      have hwinner := hchange.winner packet hscope
      generalize sortCandidates (selectPdr rules'.pdrs packet).1 = cs at hcandidates ⊢
      cases hleft : (selectPdr rules.pdrs packet).2 with
      | none =>
        rw [hleft, Option.map_none, Option.map_eq_none_iff] at hwinner
        rw [hwinner]
        exact ⟨cs, hcandidates, rfl⟩
      | some winner =>
        rw [hleft, Option.map_some] at hwinner
        obtain ⟨winner', hright, hsame⟩ := Option.map_eq_some_iff.mp hwinner
        have hid : winner'.id = winner.id := congrArg (·.1) hsame
        have hfar : findFar rules' winner'.farId = findFar rules winner.farId := by
          rw [hchange.rest, show winner'.farId = winner.farId from congrArg (·.2.1) hsame]
          rfl
        rw [hright]
        dsimp only
        rw [hfar, hid]
        cases findFar rules winner.farId with
        | none => exact ⟨cs, hcandidates, rfl⟩
        | some far =>
          dsimp only
          rw [candidates_enforce, enforce_treatment p.view hchange.rest hsame]
          exact ⟨cs, hcandidates, enforce_candidates cs { d with
            candidates := sortCandidates (selectPdr rules.pdrs packet).1
            selectedPdrId := winner.id.value }⟩

omit [InetText] in
theorem settle_rules (r : Verdict) : (p.settle r).2.rules = p.rules :=
  (retain_rules _ _).trans (applyEffect_rules _ _)

/-- Settling a verdict on both. -/
theorem Changed.settle (h : Changed R scope limits p p') (r : Verdict) {cs : List MatchCandidate}
    (hrelated : R r.decision.candidates cs) :
    let r' : Verdict := ⟨withCandidates cs r.decision, r.effect⟩
    CandidatesRelated R (p.settle r).1 (p'.settle r').1 ∧
      (p'.settle r').2 = { (p.settle r).2 with
        rules := (p'.settle r').2.rules
        decisions := (p'.settle r').2.decisions } ∧
      (p'.settle r').2.decisions = p'.decisions ++ [(p'.settle r').1] := by
  obtain ⟨rules, ds, heq⟩ : ∃ rules ds, p' = { p with rules := rules, decisions := ds } :=
    ⟨_, _, h.rest⟩
  subst heq
  refine ⟨⟨?_, ?_⟩, ?_, ?_⟩
  · simp only [PacketPipeline.settle, retain_fst]
    rfl
  · simp only [PacketPipeline.settle, retain_fst]
    exact hrelated
  · unfold PacketPipeline.settle
    by_cases hroom : p.events.length < p.limits.events.toNat
    · rw [retain_of_room (p.applyEffect r.effect) _ hroom,
        retain_of_room (applyEffect { p with rules := rules, decisions := ds } r.effect) _ hroom]
      rfl
    · rw [retain_of_full (p.applyEffect r.effect) _ hroom,
        retain_of_full (applyEffect { p with rules := rules, decisions := ds } r.effect) _ hroom]
      rfl
  · exact retain_decisions _ _

/-- **One packet on both.** -/
theorem Changed.process (h : Changed R scope limits p p') (hempty : R [] [])
    {packet : Packet} (hscope : scope packet) (runId scenarioId : String) :
    ∃ d q d' q', p.process packet runId scenarioId = some (d, q) ∧
      p'.process packet runId scenarioId = some (d', q') ∧ CandidatesRelated R d d' ∧
      Changed R scope limits q q' := by
  have hlimits : p'.limits = p.limits := by rw [h.rest]
  by_cases hfull : p.limits.results.toNat ≤ p.decisions.length
  · have hfull' : p'.limits.results.toNat ≤ p'.decisions.length := by
      rw [hlimits, ← h.decisions.length_eq]
      exact hfull
    refine ⟨_, _, _, _, process_of_full hfull, process_of_full hfull', ?_, h⟩
    rw [h.header]
    exact ⟨rfl, hempty⟩
  · have hroom := Nat.not_le.mp hfull
    have hroom' : p'.decisions.length < p'.limits.results.toNat := by
      rw [hlimits, ← h.decisions.length_eq]
      exact hroom
    have hprocess : p.process packet runId scenarioId = some _ := h.left.process_eq hroom
    have hprocess' : p'.process packet runId scenarioId = some _ := h.right.process_eq hroom'
    obtain ⟨cs, hrelated, hverdict⟩ := h.verdict hempty hscope runId scenarioId
    rw [hverdict] at hprocess'
    obtain ⟨hdecisions, hrest, hlast⟩ := h.settle _ hrelated
    have hleft := h.left.exec (exec_process hprocess)
    have hright := h.right.exec (exec_process hprocess')
    refine ⟨(p.settle _).1, (p.settle _).2, (p'.settle _).1, (p'.settle _).2, hprocess, hprocess',
      hdecisions, ?_, ?_, hleft, hright, hrest, ?_⟩
    · rw [settle_rules, settle_rules]
      exact h.rules
    · rw [← h.limits]
      simp [PacketPipeline.settle]
    · rw [hlast, PacketPipeline.settle, retain_decisions]
      exact List.rel_append h.decisions (.cons hdecisions .nil)

/-- **One install on both.** -/
theorem Changed.install (h : Changed R scope limits p p') {rules rules' : RuleSet}
    (hchange : PdrChange R scope limits rules rules') :
    ((p.install rules).1 = .ok () ↔ (p'.install rules').1 = .ok ()) ∧
      Changed R scope limits (p.install rules).2 (p'.install rules').2 := by
  have hlimits : p'.limits = limits := by rw [h.rest]; exact h.limits
  have hout := h.left.install_outcome rules
  have hout' := h.right.install_outcome rules'
  have hleft := hout.wellFormed h.left
  have hright := hout'.wellFormed h.right
  have hconstant := hout.limits
  cases hout with
  | rejected hinvalid hresult hkept =>
    rw [h.limits] at hinvalid
    cases hout' with
    | rejected _ hresult' hkept' =>
      refine ⟨iff_of_false hresult hresult', ?_⟩
      rw [hkept, hkept']
      exact h
    | accepted hvalid' _ _ =>
      rw [hlimits] at hvalid'
      exact absurd (hchange.valid.mpr hvalid') hinvalid
  | accepted hvalid hresult hinstalled =>
    rw [h.limits] at hvalid
    cases hout' with
    | rejected hinvalid' _ _ =>
      rw [hlimits] at hinvalid'
      exact absurd (hchange.valid.mp hvalid) hinvalid'
    | accepted _ hresult' hinstalled' =>
      have hqers : rules'.qers = rules.qers := by rw [hchange.rest]
      have hurrs : rules'.urrs = rules.urrs := by rw [hchange.rest]
      refine ⟨iff_of_true hresult hresult', ?_, hconstant.trans h.limits, hleft, hright, ?_, ?_⟩
      · rw [hinstalled, hinstalled']
        exact .some hchange
      · rw [hinstalled, hinstalled', hqers, hurrs, h.rest]
      · rw [hinstalled, hinstalled']
        exact h.decisions

end Step

/-! ## Two runs -/

/-- Two installs that are both accepted or both rejected, or two decisions
that are equal apart from their candidates. -/
inductive ReplyRelated (R : CandidateRelation) : PipelineReply → PipelineReply → Prop where
  | installed {result result' : Except String Unit} (haccepted : result = .ok () ↔ result' = .ok ()) :
      ReplyRelated R (.installed result) (.installed result')
  | decided {d d' : PacketDecision} (h : CandidatesRelated R d d') :
      ReplyRelated R (.decided d) (.decided d')

/-- The same call, or two installs whose rulesets differ by a change of the
PDRs. -/
inductive CallChanged (R : CandidateRelation) (scope : Packet → Prop) (limits : CapacityLimits) :
    PipelineCall → PipelineCall → Prop where
  | install {rules rules' : RuleSet} (h : PdrChange R scope limits rules rules') :
      CallChanged R scope limits (.install rules) (.install rules')
  | process {packet : Packet} (h : scope packet) (runId scenarioId : String) :
      CallChanged R scope limits (.process packet runId scenarioId)
        (.process packet runId scenarioId)

/-- Equal runtime state, reports, sinks and events. -/
structure SameTreatment (R : CandidateRelation) (p p' : PacketPipeline) : Prop where
  runtime : p'.runtime = p.runtime
  reports : p'.reports = p.reports
  n3Sink : p'.n3Sink = p.n3Sink
  n6Sink : p'.n6Sink = p.n6Sink
  events : p'.events = p.events
  droppedEvents : p'.droppedEvents = p.droppedEvents
  decisions : List.Forall₂ (CandidatesRelated R) p.decisions p'.decisions

section Runs

variable {R : CandidateRelation} {scope : Packet → Prop} {limits : CapacityLimits}
  {p p' : PacketPipeline}

theorem Changed.treatment (h : Changed R scope limits p p') : SameTreatment R p p' := by
  have hdecisions := h.decisions
  rw [h.rest]
  exact ⟨rfl, rfl, rfl, rfl, rfl, rfl, hdecisions⟩

/-- **One call on both.** -/
theorem Changed.exec (h : Changed R scope limits p p') (hempty : R [] []) {call call' : PipelineCall}
    (hcall : CallChanged R scope limits call call') {reply : PipelineReply} {q : PacketPipeline}
    (hexec : p.exec call = some (reply, q)) :
    ∃ reply' q', p'.exec call' = some (reply', q') ∧ ReplyRelated R reply reply' ∧
      Changed R scope limits q q' := by
  cases hcall with
  | install hchange =>
    rw [exec_install] at hexec
    cases hexec
    obtain ⟨haccepted, hafter⟩ := h.install hchange
    exact ⟨_, _, exec_install .., .installed haccepted, hafter⟩
  | process hscope runId scenarioId =>
    obtain ⟨d, q₀, d', q', hprocess, hprocess', hrelated, hafter⟩ :=
      h.process hempty hscope runId scenarioId
    rw [exec_process hprocess] at hexec
    cases hexec
    exact ⟨_, q', exec_process hprocess', .decided hrelated, hafter⟩

/-- **A change of the PDRs shows in the candidates only**: two runs whose
rulesets differ by such changes answer every call alike but for the
candidates, and leave the same runtime state, reports, sinks and events. -/
theorem changed_runs (hempty : R [] []) {I : PipelineCall → PipelineCall → Prop}
    (hI : ∀ call call', I call call' → CallChanged R scope limits call call')
    {calls calls' : List PipelineCall} (hcalls : List.Forall₂ I calls calls') :
    ∃ es p es' p',
      run PacketPipeline.exec (new limits) calls = some (es, p) ∧
      run PacketPipeline.exec (new limits) calls' = some (es', p') ∧
      List.Forall₂ (EventsRelated I (ReplyRelated R) (SameTreatment R)) es es' ∧
      SameTreatment R p p' := by
  obtain ⟨es, p, hrun⟩ := (wellFormed_new limits).run_total calls
  obtain ⟨es', p', hrun', hevents, hchanged⟩ :=
    run_simulation (fun _ _ _ _ hs hcall _ _ hexec => hs.exec hempty (hI _ _ hcall) hexec) hcalls
      (changed_new R scope limits) hrun
  refine ⟨es, p, es', p', hrun, hrun', hevents.imp fun _ _ he => ?_, hchanged.treatment⟩
  exact ⟨he.input, he.output, he.after.treatment⟩

end Runs

end Change

end PacketPipeline

end UpfPolicy
