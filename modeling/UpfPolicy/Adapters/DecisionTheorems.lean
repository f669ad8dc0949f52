/-
UpfPolicy.Adapters.DecisionTheorems — what the sections of a decision say.

A decision is filled in stage by stage, and both renderings read all of its
sections, applicable or not. No stage changes the heading; the QER and URR
sections are blank or come from the engine (`Sections`). So every decision
names its own call and the ruleset it was made under
(`process_sections`).
-/
import UpfPolicy.Adapters.ContractTheorems

namespace UpfPolicy

open Support

/-- The part of a decision that is written before the first stage. -/
def PacketDecision.heading (d : PacketDecision) : PacketDecision where
  runId := d.runId
  scenarioId := d.scenarioId
  packetId := d.packetId
  sessionId := d.sessionId
  arrivalTimeMicros := d.arrivalTimeMicros
  ingress := d.ingress
  rulesetVersion := d.rulesetVersion
  updateId := d.updateId

/-! ## Sections -/

/-- The QER section: untouched, set aside, or the engine's. -/
inductive QerSection (selected : UInt32) : QerDecision → Prop where
  | unselected (hselected : selected = 0) : QerSection selected {}
  | uncited (hselected : selected ≠ 0) :
      QerSection selected { outcome := "NOT_APPLICABLE", allowed := true }
  | metered {d : QerDecision} (happlicable : d.applicable = true) : QerSection selected d

/-- The URR section: untouched, or the engine's for an installed URR. -/
inductive UrrSection (urrs : List Urr) : UrrDecision → Prop where
  | uncited : UrrSection urrs {}
  | counted {urr : Urr} (hurr : urr ∈ urrs) (current : UsageCounterState) (payloadBytes : UInt64)
      (sessionId : String) (rulesetVersion : UInt64) :
      UrrSection urrs (evaluateUrr urr current payloadBytes sessionId rulesetVersion).decision

/-- The URRs a pipeline has installed. -/
def PacketPipeline.urrs (p : PacketPipeline) : List Urr := (p.rules.map (·.urrs)).getD []

/-- The sections of a decision, under a heading. -/
structure Sections (heading : PacketDecision) (urrs : List Urr) (d : PacketDecision) : Prop where
  heading : d.heading = heading
  qer : QerSection d.selectedPdrId d.qer
  urr : UrrSection urrs d.urr
  observed : d.observabilityDegraded = false

/-- What a later stage keeps of a decision. -/
structure SectionsKept (urrs : List Urr) (d d' : PacketDecision) : Prop where
  heading : d'.heading = d.heading
  selectedPdrId : d'.selectedPdrId = d.selectedPdrId
  qer : d'.qer = d.qer
  urr : UrrSection urrs d'.urr
  observed : d'.observabilityDegraded = d.observabilityDegraded

/-- A stage may change other fields first. -/
theorem SectionsKept.after {urrs : List Urr} {d e d' : PacketDecision} (h : SectionsKept urrs e d')
    (hheading : e.heading = d.heading) (hselected : e.selectedPdrId = d.selectedPdrId)
    (hqer : e.qer = d.qer) (hobserved : e.observabilityDegraded = d.observabilityDegraded) :
    SectionsKept urrs d d' :=
  ⟨h.heading.trans hheading, h.selectedPdrId.trans hselected, h.qer.trans hqer, h.urr,
    h.observed.trans hobserved⟩

theorem SectionsKept.sections {heading e d : PacketDecision} {urrs : List Urr}
    (h : SectionsKept urrs e d) (hheading : e.heading = heading)
    (hqer : QerSection e.selectedPdrId e.qer) (hobserved : e.observabilityDegraded = false) :
    Sections heading urrs d := by
  refine ⟨h.heading.trans hheading, ?_, h.urr, h.observed.trans hobserved⟩
  rw [h.qer, h.selectedPdrId]
  exact hqer

section Stages

variable {rules : RuleSet} {packet : Packet} {winner : Pdr} {far : Far} {d : PacketDecision}
  (v : View) (planned : Effect)

theorem commit_sections (e : FarEvaluation) (hurr : UrrSection rules.urrs d.urr) :
    SectionsKept rules.urrs d (v.commit d far e planned).decision := by
  unfold View.commit
  split
  · exact ⟨rfl, rfl, rfl, hurr, rfl⟩
  · split
    · exact ⟨rfl, rfl, rfl, hurr, rfl⟩
    · exact ⟨rfl, rfl, rfl, hurr, rfl⟩

theorem account_sections (hurr : d.urr = {}) :
    SectionsKept rules.urrs d (v.account rules packet winner d far planned).decision := by
  unfold View.account
  cases hcited : citedUrr rules winner with
  | none => exact commit_sections v planned _ (hurr ▸ .uncited)
  | some urr =>
    dsimp only
    have hsection := UrrSection.counted (citedUrr_mem hcited).1 (v.usage urr.id.value)
      packet.payloadBytes.toUInt64 rules.sessionId rules.version
    generalize evaluateUrr urr (v.usage urr.id.value) packet.payloadBytes.toUInt64 rules.sessionId
      rules.version = usage at hsection
    split
    · exact ⟨rfl, rfl, rfl, hsection, rfl⟩
    · split
      · exact ⟨rfl, rfl, rfl, hsection, rfl⟩
      · exact (commit_sections v _ _ hsection).after rfl rfl rfl rfl

theorem resolve_sections (hurr : d.urr = {}) :
    SectionsKept rules.urrs d (v.resolve rules packet winner d far planned).decision := by
  unfold View.resolve
  refine (account_sections v planned ?_).after rfl rfl rfl rfl
  exact hurr

theorem enforce_sections (hselected : d.selectedPdrId ≠ 0) (hqer : d.qer = {}) (hurr : d.urr = {})
    (hobserved : d.observabilityDegraded = false) :
    Sections d.heading rules.urrs (v.enforce rules packet winner d far).decision := by
  unfold View.enforce
  cases hcited : citedQer rules winner with
  | none =>
    refine (resolve_sections v {} ?_).sections rfl ?_ ?_
    · exact hurr
    · rw [hqer]
      exact .uncited hselected
    · exact hobserved
  | some qer =>
    dsimp only
    have happlicable := (evaluateQer_names qer (v.tokens qer.id.value) packet.payloadBytes.toUInt64
      packet.arrivalTimeMicros).1
    generalize evaluateQer qer (v.tokens qer.id.value) packet.payloadBytes.toUInt64
      packet.arrivalTimeMicros = evaluation at happlicable
    split
    · refine (resolve_sections v _ ?_).sections rfl (.metered ?_) ?_
      · exact hurr
      · exact happlicable
      · exact hobserved
    · exact ⟨rfl, .metered happlicable, hurr ▸ .uncited, hobserved⟩

end Stages

namespace PacketPipeline

section Call

variable [InetText] {p p' : PacketPipeline} {packet : Packet} {d : PacketDecision}
  {runId scenarioId : String}

omit [InetText] in
/-- A decision that no stage has touched. -/
theorem header_sections (p : PacketPipeline) (packet : Packet) (runId scenarioId : String) :
    Sections (p.header packet runId scenarioId) p.urrs (p.header packet runId scenarioId) :=
  ⟨rfl, .unselected rfl, .uncited, rfl⟩

theorem WellFormed.verdict_sections (h : p.WellFormed) :
    Sections (p.header packet runId scenarioId) p.urrs
      (p.verdict packet runId scenarioId).decision := by
  have hheader := header_sections p packet runId scenarioId
  unfold verdict
  cases hrules : p.rules with
  | none => exact ⟨rfl, hheader.qer, hheader.urr, rfl⟩
  | some rules =>
    have hurrs : p.urrs = rules.urrs := by rw [urrs, hrules, Option.map_some, Option.getD_some]
    dsimp only
    split
    · exact ⟨rfl, hheader.qer, hheader.urr, rfl⟩
    · cases hwinner : (selectPdr rules.pdrs packet).2 with
      | none => exact ⟨rfl, hheader.qer, hheader.urr, rfl⟩
      | some winner =>
        have hvalid := h.valid rules hrules
        have hsel := (hvalid.selectPdr_winner packet winner).mp hwinner
        obtain ⟨far, hfar, -⟩ := (validatePdr_ok (hvalid.pdrOk winner hsel.mem)).far
        dsimp only
        rw [hfar, hurrs]
        have hid : winner.id.value ≠ 0 := bne_iff_ne.mp (hvalid.pdrIds.valid winner hsel.mem)
        exact enforce_sections
          (d := { p.triedDecision packet runId scenarioId rules with selectedPdrId := winner.id.value })
          p.view hid rfl rfl rfl

/-- **Every decision names its call and its ruleset**, and its sections are
blank or the engine's. -/
theorem WellFormed.process_sections (h : p.WellFormed)
    (hprocess : p.process packet runId scenarioId = some (d, p')) :
    d.heading = p.header packet runId scenarioId ∧ QerSection d.selectedPdrId d.qer ∧
      UrrSection p.urrs d.urr := by
  by_cases hroom : p.decisions.length < p.limits.results.toNat
  · rw [h.process_eq hroom] at hprocess
    have hd : (p.settle (p.verdict packet runId scenarioId)).1 = d :=
      congrArg Prod.fst (Option.some.inj hprocess)
    have hsections : Sections (p.header packet runId scenarioId) p.urrs _ := h.verdict_sections
    rw [← hd, settle, retain_fst]
    exact ⟨hsections.heading, hsections.qer, hsections.urr⟩
  · rw [process_of_full (Nat.not_lt.mp hroom)] at hprocess
    cases hprocess
    exact ⟨rfl, .unselected rfl, .uncited⟩

end Call

end PacketPipeline

end UpfPolicy
