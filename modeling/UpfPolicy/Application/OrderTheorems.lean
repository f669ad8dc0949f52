/-
UpfPolicy.Application.OrderTheorems — the order of the rules is irrelevant.

Two pipelines are `SameButOrder` when they differ at most in the order of
the rules they have installed. The relation is a simulation: an `install`
of permuted rules is accepted by both or by neither and rebuilds the same
runtime state, and a packet gets the same decision and the same effects
(`process_permuted`). `rule_order_irrelevant` carries it over runs.
-/
import UpfPolicy.Application.ProcessTheorems

namespace UpfPolicy

open Support

/-! ## Candidates and winner -/

section Selection

variable [InetText]

instance : Std.Total (fun a b : MatchCandidate => a.pdrId ≤ b.pdrId) :=
  ⟨fun _ _ => UInt32.le_total _ _⟩

instance : IsTrans MatchCandidate (fun a b => a.pdrId ≤ b.pdrId) :=
  ⟨fun _ _ _ => UInt32.le_trans⟩

omit [InetText] in
/-- Candidates with distinct PDR IDs are sorted to one list. -/
theorem sortCandidates_perm {cs cs' : List MatchCandidate} (hperm : cs.Perm cs')
    (hnd : (cs.map (·.pdrId)).Nodup) :
    PacketPipeline.sortCandidates cs = PacketPipeline.sortCandidates cs' := by
  have hleft := List.perm_insertionSort (fun a b : MatchCandidate => a.pdrId ≤ b.pdrId) cs
  have hright := List.perm_insertionSort (fun a b : MatchCandidate => a.pdrId ≤ b.pdrId) cs'
  refine List.Perm.eq_of_pairwise ?_ (List.pairwise_insertionSort _ cs)
    (List.pairwise_insertionSort _ cs') (hleft.trans (hperm.trans hright.symm))
  intro a b ha hb hab hba
  have ha' := hleft.mem_iff.mp ha
  have hb' := hperm.mem_iff.mpr (hright.mem_iff.mp hb)
  exact List.inj_on_of_nodup_map hnd ha' hb' (UInt32.le_antisymm hab hba)

variable {rules rules' : RuleSet} {limits : CapacityLimits}

theorem sortCandidates_permuted (hperm : rules.Permuted rules') (h : RuleSetValid rules limits)
    (packet : Packet) :
    PacketPipeline.sortCandidates (PacketPipeline.selectPdr rules.pdrs packet).1
      = PacketPipeline.sortCandidates (PacketPipeline.selectPdr rules'.pdrs packet).1 := by
  rw [selectPdr_eq, selectPdr_eq]
  refine sortCandidates_perm (hperm.pdrs.map _) ?_
  rw [List.map_map]
  exact h.pdrIds.nodup

theorem winner_permuted (hperm : rules.Permuted rules') (h : RuleSetValid rules limits)
    (packet : Packet) :
    (PacketPipeline.selectPdr rules.pdrs packet).2
      = (PacketPipeline.selectPdr rules'.pdrs packet).2 := by
  rw [selectPdr_eq, selectPdr_eq]
  exact firstMin_perm (hperm.pdrs.filter _) (h.matched_inj packet)

end Selection

namespace PacketPipeline

/-! ## Replacing the ruleset -/

/-- The pipeline with other rules installed, everything else kept. -/
def withRules (p : PacketPipeline) (rules : Option RuleSet) : PacketPipeline := { p with rules }

/-- The result of a call with other rules left installed. -/
def keepRules (rules : Option RuleSet) (r : PacketDecision × PacketPipeline) :
    PacketDecision × PacketPipeline := (r.1, r.2.withRules rules)

section WithRules

variable (p : PacketPipeline) (rs : Option RuleSet)

@[simp]
theorem withRules_rules : (p.withRules rs).rules = rs := rfl

@[simp]
theorem withRules_limits : (p.withRules rs).limits = p.limits := rfl

@[simp]
theorem withRules_runtime : (p.withRules rs).runtime = p.runtime := rfl

@[simp]
theorem withRules_reports : (p.withRules rs).reports = p.reports := rfl

@[simp]
theorem withRules_decisions : (p.withRules rs).decisions = p.decisions := rfl

theorem retain_withRules (d : PacketDecision) :
    (p.withRules rs).retain d = keepRules rs (p.retain d) := by
  by_cases h : p.events.length < p.limits.events.toNat
  · have h' : (p.withRules rs).events.length < (p.withRules rs).limits.events.toNat := h
    rw [retain, retain, if_pos h, if_pos h']
    rfl
  · have h' : ¬ (p.withRules rs).events.length < (p.withRules rs).limits.events.toNat := h
    rw [retain, retain, if_neg h, if_neg h']
    rfl

theorem sinkOf_withRules (i : Interface) : (p.withRules rs).sinkOf i = p.sinkOf i := by
  cases i <;> rfl

theorem pushSink_withRules (packet : Packet) (i : Interface) :
    (p.withRules rs).pushSink packet i = (p.pushSink packet i).withRules rs := by
  cases i <;> rfl

theorem commitPlan_withRules (plan : Plan) :
    (p.withRules rs).commitPlan plan = (p.commitPlan plan).withRules rs := by
  unfold commitPlan
  cases plan.tokens <;> cases plan.usage <;> rfl

theorem commit_withRules (d : PacketDecision) (far : Far) (e : FarEvaluation) (plan : Plan) :
    (p.withRules rs).commit d far e plan = keepRules rs (p.commit d far e plan) := by
  unfold commit
  rw [sinkOf_withRules, commitPlan_withRules, withRules_limits]
  split
  · exact retain_withRules ..
  · simp only [pushSink_withRules, retain_withRules]
    split
    · rfl
    · rfl

theorem accountUrr_withRules (rules : RuleSet) (packet : Packet) (winner : Pdr)
    (d : PacketDecision) (far : Far) (e : FarEvaluation) (plan : Plan) :
    (p.withRules rs).accountUrr rules packet winner d far e plan
      = (p.accountUrr rules packet winner d far e plan).map (keepRules rs) := by
  unfold accountUrr
  cases winner.urrId with
  | none => exact congrArg some (commit_withRules ..)
  | some urrId =>
    dsimp only
    cases findUrr rules urrId with
    | none => rfl
    | some urr =>
      dsimp only
      rw [withRules_runtime]
      generalize subscript p.runtime.urrs urr.id.value = found
      have hmoved : ∀ urrs, ({ p.withRules rs with runtime := { p.runtime with urrs } } :
          PacketPipeline) = withRules { p with runtime := { p.runtime with urrs } } rs :=
        fun _ => rfl
      simp only [hmoved, retain_withRules, commit_withRules]
      simp only [withRules_reports, withRules_limits, apply_ite (Option.map (keepRules rs)),
        Option.map_some]
      rfl

theorem resolveFar_withRules (rules : RuleSet) (packet : Packet) (winner : Pdr)
    (d : PacketDecision) (plan : Plan) :
    (p.withRules rs).resolveFar rules packet winner d plan
      = (p.resolveFar rules packet winner d plan).map (keepRules rs) := by
  unfold resolveFar
  cases findFar rules winner.farId with
  | none => rfl
  | some far =>
    simp only [retain_withRules, accountUrr_withRules]
    split
    · rfl
    · rfl

theorem enforceQer_withRules (rules : RuleSet) (packet : Packet) (winner : Pdr)
    (d : PacketDecision) :
    (p.withRules rs).enforceQer rules packet winner d
      = (p.enforceQer rules packet winner d).map (keepRules rs) := by
  unfold enforceQer
  cases winner.qerId with
  | none => exact resolveFar_withRules ..
  | some qerId =>
    dsimp only
    cases findQer rules qerId with
    | none => rfl
    | some qer =>
      dsimp only
      rw [withRules_runtime]
      generalize subscript p.runtime.qers qer.id.value = found
      have hmoved : ∀ qers, ({ p.withRules rs with runtime := { p.runtime with qers } } :
          PacketPipeline) = withRules { p with runtime := { p.runtime with qers } } rs :=
        fun _ => rfl
      simp only [hmoved, resolveFar_withRules]
      split
      · split
        · exact congrArg some (retain_withRules ..)
        · exact congrArg some (retain_withRules ..)
      · rfl

end WithRules

/-! ## One packet -/

section Permuted

variable {p : PacketPipeline} {rules rules' : RuleSet} {limits : CapacityLimits}

/-- The stages see a ruleset through its lookups, its session and its
version. -/
theorem enforceQer_permuted (hperm : rules.Permuted rules') (h : RuleSetValid rules limits)
    (packet : Packet) (winner : Pdr) (d : PacketDecision) :
    p.enforceQer rules' packet winner d = p.enforceQer rules packet winner d := by
  simp only [enforceQer, resolveFar, accountUrr, ← findFar_perm hperm h, ← findQer_perm hperm h,
    ← findUrr_perm hperm h, ← hperm.sessionId, ← hperm.version]

/-- **A packet gets the same decision and the same effects.** -/
theorem process_permuted [InetText] (hperm : rules.Permuted rules')
    (h : RuleSetValid rules limits) (hrules : p.rules = some rules) (packet : Packet)
    (runId scenarioId : String) :
    (p.withRules (some rules')).process packet runId scenarioId
      = (p.process packet runId scenarioId).map (keepRules (some rules')) := by
  have hheader : (p.withRules (some rules')).header packet runId scenarioId
      = p.header packet runId scenarioId := by
    unfold header
    rw [withRules_rules, hrules, Option.map_some, Option.map_some, hperm.version]
  unfold process
  rw [hheader, withRules_rules, withRules_decisions, withRules_limits, hrules]
  dsimp only
  rw [← hperm.sessionId, ← sortCandidates_permuted hperm h packet, ← winner_permuted hperm h packet]
  by_cases hfull : p.decisions.length ≥ p.limits.results.toNat
  · rw [if_pos hfull, if_pos hfull]
    rfl
  · rw [if_neg hfull, if_neg hfull]
    split
    · exact congrArg some (retain_withRules ..)
    · cases (selectPdr rules.pdrs packet).2 with
      | none => exact congrArg some (retain_withRules ..)
      | some winner =>
        dsimp only
        rw [enforceQer_permuted hperm h, enforceQer_withRules]

end Permuted

/-! ## Two runs -/

/-- Both slots are empty, or they hold the same rules in some order. -/
inductive RulesPermuted : Option RuleSet → Option RuleSet → Prop where
  | none : RulesPermuted none none
  | some {rules rules' : RuleSet} (hperm : rules.Permuted rules') :
      RulesPermuted (some rules) (some rules')

/-- Two pipelines that differ at most in the order of their rules. -/
structure SameButOrder (p p' : PacketPipeline) : Prop where
  left : p.WellFormed
  right : p'.WellFormed
  rules : RulesPermuted p.rules p'.rules
  rest : p' = p.withRules p'.rules

theorem sameButOrder_new (limits : CapacityLimits) : SameButOrder (new limits) (new limits) :=
  ⟨wellFormed_new limits, wellFormed_new limits, .none, rfl⟩

/-- The same call, up to the order of the rules. -/
inductive CallPermuted : PipelineCall → PipelineCall → Prop where
  | install {rules rules' : RuleSet} (hperm : rules.Permuted rules') :
      CallPermuted (.install rules) (.install rules')
  | process (packet : Packet) (runId scenarioId : String) :
      CallPermuted (.process packet runId scenarioId) (.process packet runId scenarioId)

/-- Two installs that are both accepted or both rejected, or two equal
decisions. Rejected installs may name different rules as the first bad one. -/
inductive SameReply : PipelineReply → PipelineReply → Prop where
  | installed {result result' : Except String Unit} (haccepted : result = .ok () ↔ result' = .ok ()) :
      SameReply (.installed result) (.installed result')
  | decided (d : PacketDecision) : SameReply (.decided d) (.decided d)

/-- Equal runtime state, reports, sinks and retained results. -/
structure SameObservations (p p' : PacketPipeline) : Prop where
  runtime : p'.runtime = p.runtime
  reports : p'.reports = p.reports
  n3Sink : p'.n3Sink = p.n3Sink
  n6Sink : p'.n6Sink = p.n6Sink
  decisions : p'.decisions = p.decisions
  events : p'.events = p.events
  droppedEvents : p'.droppedEvents = p.droppedEvents

section Runs

variable {p p' : PacketPipeline}

theorem SameButOrder.observations (h : SameButOrder p p') : SameObservations p p' := by
  rw [h.rest]
  exact ⟨rfl, rfl, rfl, rfl, rfl, rfl, rfl⟩

theorem SameButOrder.limits (h : SameButOrder p p') : p'.limits = p.limits := by
  rw [h.rest]
  rfl

/-- **Permuted rules are both accepted or both rejected**, and accepting
them rebuilds the same stores. -/
theorem SameButOrder.install (h : SameButOrder p p') {rules rules' : RuleSet}
    (hperm : rules.Permuted rules') :
    ((p.install rules).1 = .ok () ↔ (p'.install rules').1 = .ok ()) ∧
      SameButOrder (p.install rules).2 (p'.install rules').2 := by
  have hout := h.left.install_outcome rules
  have hout' := h.right.install_outcome rules'
  have hleft := hout.wellFormed h.left
  have hright := hout'.wellFormed h.right
  cases hout with
  | rejected hinvalid hresult hkept =>
    cases hout' with
    | rejected _ hresult' hkept' =>
      refine ⟨iff_of_false hresult hresult', ?_⟩
      rw [hkept, hkept']
      exact h
    | accepted hvalid' _ _ =>
      rw [h.limits] at hvalid'
      exact absurd (hvalid'.perm hperm.symm) hinvalid
  | accepted hvalid hresult hinstalled =>
    cases hout' with
    | rejected hinvalid' _ _ =>
      rw [h.limits] at hinvalid'
      exact absurd (hvalid.perm hperm) hinvalid'
    | accepted _ hresult' hinstalled' =>
      refine ⟨iff_of_true hresult hresult', hleft, hright, ?_, ?_⟩
      · rw [hinstalled, hinstalled']
        exact .some hperm
      · rw [hinstalled, hinstalled', h.observations.runtime,
          Store.rebuilt_perm _ (hperm.qers.map Qer.item) hvalid.qerIds.qerKeys,
          Store.rebuilt_perm _ (hperm.urrs.map Urr.item) hvalid.urrIds.urrKeys, h.rest]
        rfl

variable [InetText]

/-- With no rules on either side the two pipelines are one. -/
theorem SameButOrder.process_eq (h : SameButOrder p p') {d : PacketDecision} {q : PacketPipeline}
    {packet : Packet} {runId scenarioId : String} (hconfig : SameConfig p q)
    (hprocess : p.process packet runId scenarioId = some (d, q)) :
    p'.process packet runId scenarioId = some (d, q.withRules p'.rules) := by
  have hslots := h.rules
  rw [h.rest]
  generalize hleft : p.rules = slot at hslots
  generalize p'.rules = slot' at hslots
  cases hslots with
  | none =>
    have hsame : ∀ r : PacketPipeline, r.rules = none → r.withRules none = r := by
      intro r hnone
      rw [withRules, ← hnone]
    rw [hsame p hleft, hleft, hsame q (hconfig.rules.trans hleft)]
    exact hprocess
  | some hperm =>
    rw [process_permuted hperm (h.left.valid _ hleft) hleft, hprocess]
    rfl

/-- **A packet gets the same decision from both pipelines.** -/
theorem SameButOrder.process (h : SameButOrder p p') (packet : Packet)
    (runId scenarioId : String) :
    ∃ d q q', p.process packet runId scenarioId = some (d, q) ∧
      p'.process packet runId scenarioId = some (d, q') ∧ SameButOrder q q' := by
  obtain ⟨d, q, hprocess, hconfig, hexit⟩ := h.left.process_exit packet runId scenarioId
  have hprocess' := h.process_eq hconfig hprocess
  refine ⟨d, q, _, hprocess, hprocess', h.left.of_exit hconfig hexit, ?_, ?_, rfl⟩
  · exact h.right.exec (exec_process hprocess')
  · rw [withRules_rules, hconfig.rules]
    exact h.rules

/-- **One call** on two pipelines that differ only in the order of their
rules. -/
theorem SameButOrder.exec (h : SameButOrder p p') {call call' : PipelineCall}
    (hcall : CallPermuted call call') {reply : PipelineReply} {q : PacketPipeline}
    (hexec : p.exec call = some (reply, q)) :
    ∃ reply' q', p'.exec call' = some (reply', q') ∧ SameReply reply reply' ∧ SameButOrder q q' := by
  cases hcall with
  | @install rules rules' hperm =>
    rw [exec_install] at hexec
    cases hexec
    obtain ⟨haccepted, hsame⟩ := h.install hperm
    exact ⟨_, _, exec_install p' rules', .installed haccepted, hsame⟩
  | process packet runId scenarioId =>
    obtain ⟨d, q₀, q', hprocess, hprocess', hsame⟩ := h.process packet runId scenarioId
    rw [exec_process hprocess] at hexec
    cases hexec
    exact ⟨_, q', exec_process hprocess', .decided d, hsame⟩

/-- **The order of the rules is irrelevant.** Two runs from a new pipeline
whose installs permute their rules answer every call alike and agree on the
runtime state, the reports and the sinks after every call. -/
theorem rule_order_irrelevant (limits : CapacityLimits) {calls calls' : List PipelineCall}
    (hcalls : List.Forall₂ CallPermuted calls calls') :
    ∃ es p es' p',
      run PacketPipeline.exec (new limits) calls = some (es, p) ∧
      run PacketPipeline.exec (new limits) calls' = some (es', p') ∧
      List.Forall₂ (EventsRelated CallPermuted SameReply SameObservations) es es' ∧
      SameObservations p p' := by
  obtain ⟨es, p, hrun⟩ := (wellFormed_new limits).run_total calls
  obtain ⟨es', p', hrun', hevents, hsame⟩ :=
    run_simulation (fun _ _ _ _ hs hcall _ _ hexec => hs.exec hcall hexec) hcalls
      (sameButOrder_new limits) hrun
  refine ⟨es, p, es', p', hrun, hrun', hevents.imp fun _ _ he => ?_, hsame.observations⟩
  exact ⟨he.input, he.output, he.after.observations⟩

end Runs

/-- `basicRules` with the broad PDR of `tests/unit/precedence_tests.cpp`. -/
def broadRules : RuleSet :=
  { basicRules with
    pdrs := basicRules.pdrs ++ basicRules.pdrs.map fun pdr =>
      { pdr with id := ⟨11⟩, precedence := 200 } }

/-- `broadRules` with the broad PDR first. -/
def broadFirstRules : RuleSet := { broadRules with pdrs := broadRules.pdrs.reverse }

theorem broadRules_permuted : broadRules.Permuted broadFirstRules :=
  ⟨rfl, rfl, (List.reverse_perm _).symm, .refl _, .refl _, .refl _⟩

theorem rule_order_irrelevant_broad :
    validateRuleSet broadRules {} = .ok () ∧ broadFirstRules.pdrs.map (·.precedence) = [200, 100] ∧
      ∃ es p es' p',
        run (@exec dottedText) (new {}) [.install broadRules, .process uplinkPacket "r" "p"]
          = some (es, p) ∧
        run (@exec dottedText) (new {}) [.install broadFirstRules, .process uplinkPacket "r" "p"]
          = some (es', p') ∧
        List.Forall₂ (EventsRelated CallPermuted SameReply SameObservations) es es' ∧
        SameObservations p p' :=
  ⟨by decide, by decide, @rule_order_irrelevant dottedText {} _ _
    (.cons (.install broadRules_permuted) (.cons (.process uplinkPacket "r" "p") .nil))⟩

end PacketPipeline

end UpfPolicy
