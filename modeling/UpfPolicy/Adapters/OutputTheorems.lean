/-
UpfPolicy.Adapters.OutputTheorems — one result, two renderings.

The text for a reader leaves things out that the document says, and reads
sections of a decision that the document writes as null. `renderings_agree`
says that it adds nothing: results with one document have one text. That
rests on the sections being blank where they do not apply
(`DecisionTheorems`), which every file run guarantees.
-/
import UpfPolicy.Adapters.DecisionTheorems
import UpfPolicy.Adapters.HumanOutput

namespace UpfPolicy

open Support

/-- A map that another one determines, over two lists. -/
theorem map_determined {α β γ : Type} {P : α → Prop} {f : α → β} {g : α → γ}
    (h : ∀ a b, P a → P b → f a = f b → g a = g b) {xs ys : List α} (hxs : ∀ a ∈ xs, P a)
    (hys : ∀ b ∈ ys, P b) (hsame : xs.map f = ys.map f) : xs.map g = ys.map g := by
  induction xs generalizing ys with
  | nil =>
    cases ys with
    | nil => rfl
    | cons y ys => cases hsame
  | cons x xs ih =>
    cases ys with
    | nil => cases hsame
    | cons y ys =>
      obtain ⟨hfirst, hrest⟩ := List.cons.inj hsame
      obtain ⟨hx, hxs⟩ := List.forall_mem_cons.mp hxs
      obtain ⟨hy, hys⟩ := List.forall_mem_cons.mp hys
      rw [List.map_cons, List.map_cons, h x y hx hy hfirst, ih hxs hys hrest]

/-! ## The parts -/

/-- A decision whose sections are blank where they do not apply. -/
structure PacketDecision.Plain (d : PacketDecision) : Prop where
  qer : QerSection d.selectedPdrId d.qer
  urr : d.urr.applicable = false → d.urr = {}

theorem nullUnless_inj {c c' : Bool} {v v' : Json} (h : nullUnless c v = nullUnless c' v')
    (hv : v ≠ .null) (hv' : v' ≠ .null) : c = c' ∧ (c = true → v = v') := by
  cases c <;> cases c' <;> simp_all [nullUnless]

theorem unsigned32_inj {n m : UInt32} (h : unsigned32 n = unsigned32 m) : n = m := by
  have hsame := Json.unsigned.inj h
  exact UInt32.toUInt64_inj.mp hsame

theorem humanCriterion_determined (c c' : CriterionResult)
    (h : criterionJson c = criterionJson c') : humanCriterion c = humanCriterion c' := by
  simp only [criterionJson, Json.object.injEq, List.cons.injEq, Prod.mk.injEq, true_and, and_true,
    Json.string.injEq, Json.boolean.injEq] at h
  obtain ⟨hname, happlicable, hmatched, -, -⟩ := h
  obtain ⟨-, hvalue⟩ := nullUnless_inj hmatched (by simp) (by simp)
  unfold humanCriterion
  rw [← hname, ← happlicable]
  cases hcase : c.applicable with
  | false => rfl
  | true => rw [Json.boolean.inj (hvalue hcase)]

theorem humanCandidate_determined (c c' : MatchCandidate)
    (h : candidateJson c = candidateJson c') : humanCandidate c = humanCandidate c' := by
  simp only [candidateJson, Json.object.injEq, List.cons.injEq, Prod.mk.injEq, true_and, and_true,
    Json.boolean.injEq, Json.array.injEq] at h
  obtain ⟨hid, hmatched, hcriteria⟩ := h
  have hlines : c.criteria.map humanCriterion = c'.criteria.map humanCriterion :=
    map_determined (P := fun _ => True) (fun a b _ _ => humanCriterion_determined a b)
      (fun _ _ => trivial) (fun _ _ => trivial) hcriteria
  unfold humanCandidate
  rw [unsigned32_inj hid, hmatched, hlines]

theorem humanFar_determined (d d' : FarDecision) (h : farJson d = farJson d') :
    humanFar d = humanFar d' := by
  simp only [farJson, Json.object.injEq, List.cons.injEq, Prod.mk.injEq, true_and,
    Json.string.injEq] at h
  obtain ⟨hid, haction, -⟩ := h
  obtain ⟨happlicable, -⟩ := nullUnless_inj hid (by simp [unsigned32]) (by simp [unsigned32])
  unfold humanFar
  rw [happlicable] at haction ⊢
  cases hcase : d'.applicable with
  | false => rfl
  | true =>
    rw [hcase] at haction
    exact congrArg ("\nFAR: " ++ ·) haction

theorem humanUrr_determined {d d' : UrrDecision} (hd : d.applicable = false → d = {})
    (hd' : d'.applicable = false → d' = {}) (h : urrJson d = urrJson d') :
    humanUrr d = humanUrr d' := by
  simp only [urrJson, Json.object.injEq, List.cons.injEq, Prod.mk.injEq, true_and, and_true] at h
  obtain ⟨hid, -, hpb, hpa, hbb, hba, -, hreport⟩ := h
  obtain ⟨happlicable, -⟩ := nullUnless_inj hid (by simp [unsigned32]) (by simp [unsigned32])
  cases hcase : d.applicable with
  | false => rw [hd hcase, hd' (happlicable ▸ hcase)]
  | true =>
    have hcounter {n m : UInt64}
        (hn : nullUnless d.applicable (.unsigned n) = nullUnless d'.applicable (.unsigned m)) : n = m :=
      Json.unsigned.inj ((nullUnless_inj hn (by simp) (by simp)).2 hcase)
    obtain ⟨hempty, hname⟩ := nullUnless_inj hreport (by simp) (by simp)
    unfold humanUrr
    rw [hcounter hpb, hcounter hpa, hcounter hbb, hcounter hba]
    cases hnone : d.reportId.isEmpty with
    | true =>
      rw [hnone] at hempty
      simp_all
    | false =>
      rw [Json.string.inj (hname (by rw [hnone]; rfl))]
      simp_all

/-- A QER section that does not apply is known from the selection. -/
theorem QerSection.eq_of_blank {selected : UInt32} {d d' : QerDecision} (h : QerSection selected d)
    (h' : QerSection selected d') (hblank : d.applicable = false) (hblank' : d'.applicable = false) :
    d = d' := by
  cases h with
  | metered happlicable =>
    rw [hblank] at happlicable
    cases happlicable
  | unselected hnone =>
    cases h' with
    | unselected _ => rfl
    | uncited hsome => exact absurd hnone hsome
    | metered happlicable =>
      rw [hblank'] at happlicable
      cases happlicable
  | uncited hsome =>
    cases h' with
    | unselected hnone => exact absurd hnone hsome
    | uncited _ => rfl
    | metered happlicable =>
      rw [hblank'] at happlicable
      cases happlicable

theorem humanQer_determined {selected : UInt32} {d d' : QerDecision} (hd : QerSection selected d)
    (hd' : QerSection selected d') (h : qerJson d = qerJson d') : humanQer d = humanQer d' := by
  simp only [qerJson, Json.object.injEq, List.cons.injEq, Prod.mk.injEq, true_and, and_true,
    Json.string.injEq] at h
  obtain ⟨hid, -, hbefore, hrefill, hcharge, hafter, houtcome⟩ := h
  obtain ⟨happlicable, -⟩ := nullUnless_inj hid (by simp [unsigned32]) (by simp [unsigned32])
  cases hcase : d.applicable with
  | false => rw [hd.eq_of_blank hd' hcase (happlicable ▸ hcase)]
  | true =>
    have hnumber {n m : UInt64}
        (hn : nullUnless d.applicable (.unsigned n) = nullUnless d'.applicable (.unsigned m)) : n = m :=
      Json.unsigned.inj ((nullUnless_inj hn (by simp) (by simp)).2 hcase)
    rw [← happlicable, hcase, if_pos rfl, if_pos rfl] at houtcome
    unfold humanQer
    rw [houtcome, ← happlicable, hnumber hbefore, hnumber hrefill, hnumber hcharge, hnumber hafter]

/-! ## Decisions and results -/

theorem humanDecision_determined [InetText] {d d' : PacketDecision} (hd : d.Plain) (hd' : d'.Plain)
    (h : decisionJson d = decisionJson d') : humanDecision d = humanDecision d' := by
  simp only [decisionJson, Json.object.injEq, List.cons.injEq, Prod.mk.injEq, true_and, and_true,
    Json.string.injEq, Json.unsigned.injEq, Json.array.injEq] at h
  obtain ⟨hid, hsession, htime, hingress, hversion, -, hcandidates, hselected, hqer, hfar, hurr,
    hresult, hsink, -⟩ := h
  have hlines : d.candidates.map humanCandidate = d'.candidates.map humanCandidate :=
    map_determined (P := fun _ => True) (fun a b _ _ => humanCandidate_determined a b)
      (fun _ _ => trivial) (fun _ _ => trivial) hcandidates
  have hpdr : d.selectedPdrId = d'.selectedPdrId := by
    obtain ⟨hchosen, hsame⟩ := nullUnless_inj hselected (by simp [unsigned32]) (by simp [unsigned32])
    cases hcase : d.selectedPdrId != 0 with
    | false =>
      rw [hcase] at hchosen
      rw [bne_eq_false_iff_eq.mp hcase, bne_eq_false_iff_eq.mp hchosen.symm]
    | true => exact unsigned32_inj (hsame hcase)
  have hside : (if d.sinkPresent then interfaceName d.sink else "none")
      = if d'.sinkPresent then interfaceName d'.sink else "none" := by
    revert hsink
    cases d.sinkPresent <;> cases d'.sinkPresent <;> cases d.sink <;> cases d'.sink <;>
      simp [interfaceName]
  have hqerSection := hd'.qer
  rw [← hpdr] at hqerSection
  unfold humanDecision
  rw [hid, hsession, htime, hingress, hversion, hlines, ← hpdr,
    humanQer_determined hd.qer hqerSection hqer, humanFar_determined _ _ hfar,
    humanUrr_determined hd.urr hd'.urr hurr, hside, hresult]

/-- **The text is determined by the document.** -/
theorem renderHuman_determined [InetText] {r r' : RunResult} (hr : ∀ d ∈ r.decisions, d.Plain)
    (hr' : ∀ d ∈ r'.decisions, d.Plain) (h : renderJson r = renderJson r') :
    renderHuman r = renderHuman r' := by
  simp only [renderJson, Json.object.injEq, List.cons.injEq, Prod.mk.injEq, true_and,
    Json.string.injEq, Json.array.injEq] at h
  obtain ⟨hrun, hscenario, hdecisions, -⟩ := h
  have hlines := map_determined (fun _ _ hd hd' => humanDecision_determined hd hd') hr hr' hdecisions
  unfold renderHuman
  rw [hrun, hscenario, hlines]

/-! ## The two files -/

theorem UrrSection.blank {urrs : List Urr} {d : UrrDecision} (h : UrrSection urrs d)
    (hblank : d.applicable = false) : d = {} := by
  cases h with
  | uncited => rfl
  | counted _ current payloadBytes sessionId rulesetVersion =>
    rw [(evaluateUrr_facts ..).applicable] at hblank
    cases hblank

section Files

variable [InetText] [InetPton] [FloatCast] [ArgumentOrder] {files : String → FileContent}
  {rulesPath packetsPath : String}

omit [InetPton] [FloatCast] [ArgumentOrder] in
theorem plain_of_processAll {p p' : PacketPipeline} (hwf : p.WellFormed) {runId scenarioId : String}
    {packets : List Packet} {ds : List PacketDecision}
    (hall : processAll p runId scenarioId packets = some (ds, p')) : ∀ d ∈ ds, d.Plain := by
  induction packets generalizing p ds with
  | nil =>
    cases hall
    exact fun d hd => absurd hd List.not_mem_nil
  | cons packet packets ih =>
    obtain ⟨d, q, hprocess, hconfig, hexit⟩ := hwf.process_exit packet runId scenarioId
    rw [processAll, hprocess] at hall
    obtain ⟨⟨ds', q'⟩, hrest, heq⟩ := Option.map_eq_some_iff.mp hall
    cases heq
    obtain ⟨-, hqer, hurr⟩ := hwf.process_sections hprocess
    exact List.forall_mem_cons.mpr ⟨⟨hqer, hurr.blank⟩, ih (hwf.of_exit hconfig hexit) hrest⟩

theorem plain_of_runFiles {result : RunResult}
    (h : runFiles files rulesPath packetsPath = .value result) : ∀ d ∈ result.decisions, d.Plain := by
  obtain ⟨r, hfile, rfl⟩ := Outcome.map_eq_value.mp h
  have hmade := made_of_fileRun hfile
  have hwf := (PacketPipeline.firstRun_install hmade.accepted).wellFormed
  rw [← hmade.installed] at hwf
  exact plain_of_processAll hwf hmade.processed

/-- **The two renderings agree**: accepted file runs with one document have
one text. -/
theorem renderings_agree {files' : String → FileContent} {rulesPath' packetsPath' : String}
    {result result' : RunResult} (h : runFiles files rulesPath packetsPath = .value result)
    (h' : runFiles files' rulesPath' packetsPath' = .value result')
    (hsame : renderJson result = renderJson result') : renderHuman result = renderHuman result' :=
  renderHuman_determined (plain_of_runFiles h) (plain_of_runFiles h') hsame

end Files

/-- The run of `countedRun` with a threshold of 1100 bytes, which the same
packet reaches. -/
def raisedRun : Outcome FileRun := runOf (countedRules 7 1100) uplinkPackets

theorem raisedRun_isSome : raisedRun.toOption.isSome = true := by decide +kernel

deriving instance DecidableEq for RunResult

theorem renderings_agree_raised :
    renderHuman (countedRun.toOption.get countedRun_isSome).result
      = renderHuman (raisedRun.toOption.get raisedRun_isSome).result :=
  @renderings_agree PacketPipeline.dottedText dottedPton noFloats secondFirst _ _ _ _ _ _ _ _
    (runFiles_runOf countedRun_isSome) (runFiles_runOf raisedRun_isSome)
    (congrArg _ (by decide +kernel))

end UpfPolicy
