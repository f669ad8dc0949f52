/-
UpfPolicy.Application.IdleRuleTheorems — PDRs that match nothing.

Leaving out PDRs that match none of the processed packets is a change of
the PDRs (`pdrChange_without`): the winners are the same, and the candidates
lose those of these PDRs. `idle_rules_irrelevant` is what follows for runs
of any length, with any installs in between. It is about the rulesets that
are accepted: without its idle PDRs a rejected one might be accepted.
-/
import UpfPolicy.Application.PdrChangeTheorems

namespace UpfPolicy

open Support

/-- The ruleset without the PDRs that satisfy `idle`. -/
def RuleSet.without (idle : Pdr → Bool) (rules : RuleSet) : RuleSet :=
  { rules with pdrs := rules.pdrs.filter fun pdr => !idle pdr }

/-- The packet matches none of the idle PDRs. -/
def Misses (idle : Pdr → Bool) (packet : Packet) : Prop :=
  ∀ pdr, idle pdr = true → ¬ PdrMatches pdr packet

/-- The call with the idle PDRs left out of a ruleset that is accepted. -/
def PipelineCall.without (limits : CapacityLimits) (idle : Pdr → Bool) : PipelineCall → PipelineCall
  | .install rules =>
    .install (if validateRuleSet rules limits = .ok () then rules.without idle else rules)
  | call => call

namespace PacketPipeline

/-! ## Candidates and winner -/

section Selection

variable [InetText] {idle : Pdr → Bool} {packet : Packet}

/-- PDRs that do not match do not win. -/
theorem winner_without (hidle : Misses idle packet)
    (pdrs : List Pdr) :
    (selectPdr (pdrs.filter fun pdr => !idle pdr) packet).2 = (selectPdr pdrs packet).2 := by
  rw [selectPdr_eq, selectPdr_eq, List.filter_filter]
  refine congrArg (firstMin _) (List.filter_congr fun pdr _ => ?_)
  cases hmatched : (evaluateCandidate pdr packet).matched with
  | false => rfl
  | true =>
    have hmatches := (evaluateCandidate_matched_iff pdr packet).mp hmatched
    cases hcase : idle pdr with
    | false => rfl
    | true => exact absurd hmatches (hidle pdr hcase)

omit [InetText] in
/-- Sorting part of a list with distinct PDR IDs gives part of the sorted
list. -/
theorem sortCandidates_sublist {cs cs' : List MatchCandidate} (hsub : cs'.Sublist cs)
    (hnd : (cs.map (·.pdrId)).Nodup) : (sortCandidates cs').Sublist (sortCandidates cs) := by
  have hsorted := List.perm_insertionSort (fun a b : MatchCandidate => a.pdrId ≤ b.pdrId) cs
  have hkeys : ∀ {a b}, a ∈ cs → b ∈ cs → a.pdrId = b.pdrId → a = b := fun ha hb hab =>
    List.inj_on_of_nodup_map hnd ha hb hab
  let kept := (sortCandidates cs).filter fun c => decide (c.pdrId ∈ cs'.map (·.pdrId))
  have hmem : ∀ c, c ∈ kept ↔ c ∈ cs' := by
    intro c
    simp only [kept, List.mem_filter, decide_eq_true_eq, sortCandidates, hsorted.mem_iff]
    constructor
    · rintro ⟨hc, hid⟩
      obtain ⟨c', hc', heq⟩ := List.mem_map.mp hid
      rwa [← hkeys (hsub.subset hc') hc heq]
    · intro hc
      exact ⟨hsub.subset hc, List.mem_map_of_mem hc⟩
  have hkeptNodup : kept.Nodup := (hsorted.nodup_iff.mpr hnd.of_map).filter _
  have hperm : cs'.Perm kept :=
    (List.perm_ext_iff_of_nodup (hnd.of_map.sublist hsub) hkeptNodup).mpr fun c => (hmem c).symm
  have hkept : sortCandidates cs' = kept := by
    refine List.Perm.eq_of_pairwise ?_ (List.pairwise_insertionSort _ cs')
      ((List.pairwise_insertionSort _ cs).filter _)
      ((List.perm_insertionSort _ cs').trans hperm)
    intro a b ha hb hab hba
    have ha' := hsub.subset ((List.perm_insertionSort _ cs').mem_iff.mp ha)
    have hb' := hsub.subset ((hmem b).mp hb)
    exact hkeys ha' hb' (UInt32.le_antisymm hab hba)
  rw [hkept]
  exact List.filter_sublist

/-- The candidates but for those of idle PDRs. -/
structure LosesIdle (idle : Pdr → Bool) (cs cs' : List MatchCandidate) : Prop where
  rest : cs'.Sublist cs
  lost : ∀ c ∈ cs, c ∉ cs' → ∃ pdr packet, idle pdr = true ∧ c = evaluateCandidate pdr packet

theorem candidates_without (idle : Pdr → Bool) {rules : RuleSet} {limits : CapacityLimits}
    (h : RuleSetValid rules limits) (packet : Packet) :
    LosesIdle idle (sortCandidates (selectPdr rules.pdrs packet).1)
      (sortCandidates (selectPdr (rules.without idle).pdrs packet).1) := by
  rw [selectPdr_eq, selectPdr_eq]
  refine ⟨sortCandidates_sublist (List.filter_sublist.map _) ?_, fun c hc hlost => ?_⟩
  · rw [List.map_map]
    exact h.pdrIds.nodup
  · obtain ⟨pdr, hpdr, rfl⟩ := List.mem_map.mp ((List.perm_insertionSort _ _).mem_iff.mp hc)
    cases hidle : idle pdr with
    | true => exact ⟨pdr, packet, hidle, rfl⟩
    | false =>
      -- a candidate of a PDR that stays is not lost
      refine absurd ((List.perm_insertionSort _ _).mem_iff.mpr ?_) hlost
      exact List.mem_map_of_mem (List.mem_filter.mpr ⟨hpdr, by rw [hidle]; rfl⟩)

end Selection

/-! ## The change -/

/-- Rules without idle PDRs are valid where the rules are. -/
theorem ruleSetValid_without (idle : Pdr → Bool) {rules : RuleSet} {limits : CapacityLimits}
    (h : RuleSetValid rules limits) : RuleSetValid (rules.without idle) limits :=
  { h with
    pdrRoom := (List.length_filter_le _ _).trans h.pdrRoom
    pdrIds :=
      ⟨fun pdr hpdr => h.pdrIds.valid pdr (List.mem_of_mem_filter hpdr),
        h.pdrIds.nodup.sublist (List.filter_sublist.map _)⟩
    pdrOk := fun pdr hpdr => h.pdrOk pdr (List.mem_of_mem_filter hpdr)
    disjoint := h.disjoint.filter _ }

section Runs

variable [InetText] {limits : CapacityLimits} {idle : Pdr → Bool}

theorem pdrChange_without {rules : RuleSet} (hvalid : validateRuleSet rules limits = .ok ()) :
    PdrChange (LosesIdle idle) (Misses idle) limits rules (rules.without idle) where
  rest := rfl
  valid := ⟨ruleSetValid_without idle, fun _ => (validateRuleSet_ok_iff _ _).mp hvalid⟩
  candidates packet h := candidates_without idle h packet
  winner _ hidle := congrArg (Option.map Pdr.treatment) (winner_without hidle rules.pdrs)

/-- A rejected ruleset is left as it is. -/
theorem pdrChange_rejected {rules : RuleSet} (hinvalid : validateRuleSet rules limits ≠ .ok ()) :
    PdrChange (LosesIdle idle) (Misses idle) limits rules rules where
  rest := rfl
  valid := Iff.rfl
  candidates _ h := absurd ((validateRuleSet_ok_iff _ _).mpr h) hinvalid
  winner _ _ := rfl

/-! ## Two runs -/

theorem call_without {call : PipelineCall}
    (hidle : ∀ packet runId scenarioId, call = .process packet runId scenarioId →
      Misses idle packet) :
    CallChanged (LosesIdle idle) (Misses idle) limits call (call.without limits idle) := by
  cases call with
  | process packet runId scenarioId => exact .process (hidle packet runId scenarioId rfl) _ _
  | install rules =>
    dsimp only [PipelineCall.without]
    split
    · rename_i hvalid
      exact .install (pdrChange_without hvalid)
    · rename_i hinvalid
      exact .install (pdrChange_rejected hinvalid)

/-- **PDRs that match none of the packets are irrelevant.** A run whose
accepted rulesets go without them answers every call alike: the decisions
lose the candidates of these PDRs and nothing else, and the runtime state,
the reports, the sinks and the events are equal after every call. -/
theorem idle_rules_irrelevant (limits : CapacityLimits) (idle : Pdr → Bool)
    {calls : List PipelineCall}
    (hidle : ∀ packet runId scenarioId, .process packet runId scenarioId ∈ calls →
      Misses idle packet) :
    ∃ es p es' p',
      run PacketPipeline.exec (new limits) calls = some (es, p) ∧
      run PacketPipeline.exec (new limits) (calls.map (·.without limits idle)) = some (es', p') ∧
      List.Forall₂ (EventsRelated (fun call call' => call' = call.without limits idle)
        (ReplyRelated (LosesIdle idle)) (SameTreatment (LosesIdle idle))) es es' ∧
      SameTreatment (LosesIdle idle) p p' := by
  have hempty : LosesIdle idle [] [] := ⟨.refl [], fun _ hc => absurd hc List.not_mem_nil⟩
  have hcalls : List.Forall₂ (fun call call' => call ∈ calls ∧ call' = call.without limits idle)
      calls (calls.map (·.without limits idle)) := by
    rw [List.forall₂_map_right_iff, List.forall₂_same]
    exact fun call hcall => ⟨hcall, rfl⟩
  have hchanged : ∀ call call', (call ∈ calls ∧ call' = call.without limits idle) →
      CallChanged (LosesIdle idle) (Misses idle) limits call call' := by
    rintro call _ ⟨hcall, rfl⟩
    exact call_without fun packet runId scenarioId heq => hidle packet runId scenarioId (heq ▸ hcall)
  obtain ⟨es, p, es', p', hrun, hrun', hevents, htreatment⟩ := changed_runs hempty hchanged hcalls
  exact ⟨es, p, es', p', hrun, hrun', hevents.imp fun _ _ h => ⟨h.input.2, h.output, h.after⟩,
    htreatment⟩

end Runs

/-- `basicRules` with a PDR for TCP. -/
def tcpRules : RuleSet :=
  { basicRules with
    pdrs := basicRules.pdrs ++ basicRules.pdrs.map fun pdr =>
      { pdr with id := ⟨11⟩, protocol := some .tcp } }

def isTcp (pdr : Pdr) : Bool := decide (pdr.protocol = some .tcp)

/-- A UDP packet matches no PDR for TCP. -/
theorem misses_isTcp : Misses isTcp uplinkPacket := by
  intro pdr h hmatches
  have htcp := hmatches.protocol .tcp (of_decide_eq_true h)
  cases htcp

/-- `basicRules` with a PDR for TCP that cites a missing FAR. -/
def danglingRules : RuleSet :=
  { basicRules with
    version := 4
    pdrs := basicRules.pdrs ++ basicRules.pdrs.map fun pdr =>
      { pdr with id := ⟨11⟩, protocol := some .tcp, farId := ⟨99⟩ } }

/-- The second ruleset is rejected, and would not be without its TCP PDR. -/
theorem idle_rules_irrelevant_tcp :
    (validateRuleSet tcpRules {} = .ok () ∧ validateRuleSet danglingRules {} ≠ .ok () ∧
        validateRuleSet (danglingRules.without isTcp) {} = .ok ()) ∧
      ∃ es p es' p',
        run (@exec dottedText) (new {})
          [.install tcpRules, .install danglingRules, .process uplinkPacket "r" "p"]
          = some (es, p) ∧
        run (@exec dottedText) (new {})
          [.install (tcpRules.without isTcp), .install danglingRules, .process uplinkPacket "r" "p"]
          = some (es', p') ∧
        List.Forall₂ (EventsRelated (fun call call' => call' = call.without {} isTcp)
          (ReplyRelated (@LosesIdle dottedText isTcp)) (SameTreatment (@LosesIdle dottedText isTcp)))
          es es' ∧
        SameTreatment (@LosesIdle dottedText isTcp) p p' := by
  refine ⟨⟨by decide, by decide, by decide⟩, @idle_rules_irrelevant dottedText {} isTcp
    [.install tcpRules, .install danglingRules, .process uplinkPacket "r" "p"] ?_⟩
  intro packet runId scenarioId hcall
  simp only [List.mem_cons, List.not_mem_nil, or_false, reduceCtorEq, false_or,
    PipelineCall.process.injEq] at hcall
  rw [hcall.1]
  exact misses_isTcp

end PacketPipeline

end UpfPolicy
