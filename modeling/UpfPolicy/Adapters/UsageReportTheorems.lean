/-
UpfPolicy.Adapters.UsageReportTheorems — the usage reports of a rendered
run.

A run keeps its reports three times: the pipeline has its list of report
IDs, every decision has the ID it was planned with, and the document has
the array that `renderJson` builds from the decisions. The ID of a decision
is set before the two capacity tests, so the array could hold a report that
was never committed; with the limits `runFiles` uses neither test fails
(`FirstRun.reportStep`).

`usage_reports_agree` compares the entries with the committed reports and
the installed URRs. The identities, the order and the counters always
agree. The generation is written as 1 and the threshold as the bytes
counted, so those two agree exactly when every URR that is reported has
generation 1 and was brought to its threshold exactly.
-/
import UpfPolicy.Adapters.JsonInput
import UpfPolicy.Adapters.JsonOutput
import UpfPolicy.Application.CommitTheorems
import UpfPolicy.Application.ObservationTheorems
import UpfPolicy.Application.ReportTheorems
import UpfPolicy.Domain.AddressTextTheorems

namespace UpfPolicy

open Support

/-! ## Committed reports -/

/-- A report ID, and the runtime state at the moment it was committed. -/
structure CommittedReport where
  reportId : String
  runtime : RuntimeState

namespace PacketPipeline

def committedBy (e : PipelineEvent) : List CommittedReport :=
  (e.after.reports.drop e.before.reports.length).map fun id => ⟨id, e.after.runtime⟩

def committedReports (es : List PipelineEvent) : List CommittedReport := es.flatMap committedBy

/-- The entry of the document says of a committed report what the installed
ruleset and the counters at that moment say. -/
structure EntryAgrees (rules : RuleSet) (entry : Json) (report : CommittedReport) : Prop where
  reportId : entry.member? "reportId" = some (.string report.reportId)
  facts : ∃ urr ∈ rules.urrs, ∃ usage, report.runtime.urrs[urr.id.value]? = some usage ∧
    report.reportId
      = usageReportId rules.sessionId urr.id.value urr.generation rules.version ∧
    entry.number? "urrId" = some (urr.id.value.toNat : ℤ) ∧
    entry.number? "generation" = some (urr.generation.toNat : ℤ) ∧
    entry.number? "thresholdBytes" = some (urr.volumeThresholdBytes.toNat : ℤ) ∧
    entry.number? "packets" = some (usage.packets.toNat : ℤ) ∧
    entry.number? "payloadBytes" = some (usage.payloadBytes.toNat : ℤ)

/-- The usage reports of a document agree with a run that ended in a
pipeline. -/
structure ReportsAgree (rules : RuleSet) (document : Json) (es : List PipelineEvent)
    (p : PacketPipeline) : Prop where
  committed : (committedReports es).map (·.reportId) = p.reports
  entries : ∃ entries, document.member? "usageReports" = some (.array entries) ∧
    List.Forall₂ (EntryAgrees rules) entries (committedReports es)

/-! ## Reaching a threshold -/

/-- A packet gets past the QER stage and brings the URR its winner cites to
its threshold, for the first time. -/
structure Reaches (p : PacketPipeline) (packet : Packet) (urr : Urr) : Prop where
  admitted : ∃ rules winner far, Attempt p packet rules winner far ∧
    QerReady p rules packet winner ∧ citedUrr rules winner = some urr
  fits : ¬ UrrOverflows (p.usageOf urr) packet.payloadBytes.toUInt64
  due : UrrReportDue urr (p.usageOf urr) packet.payloadBytes.toUInt64

/-- A URR that the packet of an event brings to its threshold has generation
1, and is brought to it exactly. -/
def ReachedExactly (e : PipelineEvent) : Prop :=
  ∀ packet runId scenarioId urr, e.input = .process packet runId scenarioId →
    Reaches e.before packet urr →
      urr.generation = 1 ∧
        (e.before.usageOf urr).payloadBytes.toNat + packet.payloadBytes.toNat
          = urr.volumeThresholdBytes.toNat

/-! ## One packet -/

/-- What a packet does to the reports. -/
inductive ReportStep (rules : RuleSet) (p : PacketPipeline) (packet : Packet) (d : PacketDecision)
    (p' : PacketPipeline) : Prop where
  | quiet (hnot : ∀ urr, ¬ Reaches p packet urr) (hid : d.urr.reportId = "")
      (hreports : p'.reports = p.reports)
  | reported {urr : Urr} {usage : UsageCounterState} (hurr : urr ∈ rules.urrs)
      (hreaches : ∀ urr', Reaches p packet urr' ↔ urr' = urr)
      (hid : d.urr.reportId
        = usageReportId rules.sessionId urr.id.value urr.generation rules.version)
      (hnamed : d.urr.urrId = urr.id.value) (hreports : p'.reports = p.reports ++ [d.urr.reportId])
      (hentry : p'.runtime.urrs[urr.id.value]? = some usage)
      (hpackets : d.urr.packetsAfter = usage.packets)
      (hbytes : d.urr.bytesAfter = usage.payloadBytes)
      (hsum : usage.payloadBytes.toNat
        = (p.usageOf urr).payloadBytes.toNat + packet.payloadBytes.toNat)

section Step

variable {p p' : PacketPipeline} {packet : Packet} {d : PacketDecision} {rules rules' : RuleSet}
  {winner winner' : Pdr} {far far' : Far}

/-- What reaching a threshold says of a packet whose winner is known. -/
theorem Reaches.of_attempt [InetText] {urr : Urr} (h : Reaches p packet urr) (hwf : p.WellFormed)
    (hat : Attempt p packet rules winner far) :
    QerAdmits p rules packet winner ∧ citedUrr rules winner = some urr ∧
      (p.account rules packet urr).overflow = false ∧
      (p.account rules packet urr).reportGenerated = true := by
  obtain ⟨rules', winner', far', hat', hready, hcited⟩ := h.admitted
  obtain ⟨rfl, rfl, rfl⟩ := hat.unique hwf hat'
  refine ⟨qerAdmits_iff.mpr hready, hcited, ?_, (evaluateUrr_report_iff ..).mpr ⟨h.fits, h.due⟩⟩
  rw [← Bool.not_eq_true, account, evaluateUrr_overflow_iff]
  exact h.fits

/-- The step of a packet that is committed. -/
theorem reportStep_of_commit [InetText] (hwf : p.WellFormed)
    (hat : Attempt p packet rules winner far) (hadmits : QerAdmits p rules packet winner)
    (hurr : d.urr = p.urrReport rules packet winner)
    (hruntime : p'.runtime = p.committedRuntime rules packet winner)
    (hreports : p'.reports = p.reports ++ p.newReports rules packet winner) :
    ReportStep rules p packet d p' := by
  cases hcited : citedUrr rules winner with
  | none =>
    refine .quiet (fun urr hr => ?_) (by rw [hurr, urrReport, hcited]) ?_
    · have hsome := (hr.of_attempt hwf hat).2.1
      rw [hcited] at hsome
      cases hsome
    · rw [hreports, newReports, hcited, List.append_nil]
  | some urr =>
    have hd : d.urr = (p.account rules packet urr).decision := by rw [hurr, urrReport, hcited]
    cases hgen : (p.account rules packet urr).reportGenerated with
    | false =>
      refine .quiet (fun urr' hr => ?_) (by rw [hd]; exact evaluateUrr_quiet hgen) ?_
      · obtain ⟨-, hsome, -, htrue⟩ := hr.of_attempt hwf hat
        rw [hcited] at hsome
        cases hsome
        rw [hgen] at htrue
        cases htrue
      · rw [hreports, newReports, hcited]
        simp [hgen]
    | true =>
      obtain ⟨hfits, hdue⟩ := (evaluateUrr_report_iff ..).mp hgen
      have hfacts := evaluateUrr_facts urr (p.usageOf urr) packet.payloadBytes.toUInt64
        rules.sessionId rules.version
      cases evaluateUrr_outcome urr (p.usageOf urr) packet.payloadBytes.toUInt64 rules.sessionId
          rules.version with
      | overflow hover _ _ _ => exact absurd hover hfits
      | counted _ _ _ hbytes hafterPackets hafterBytes _ _ hid =>
        rw [payload_toNat] at hbytes
        refine .reported (citedUrr_mem hcited).1 ?_ (by rw [hd]; exact hid hgen)
          (by rw [hd]; exact hfacts.urrId) ?_ ?_ (by rw [hd]; exact hafterPackets)
          (by rw [hd]; exact hafterBytes) hbytes
        · intro urr'
          constructor
          · intro hr
            have hsome := (hr.of_attempt hwf hat).2.1
            rw [hcited] at hsome
            exact (Option.some.inj hsome).symm
          · rintro rfl
            exact ⟨⟨rules, winner, far, hat, qerAdmits_iff.mp hadmits, hcited⟩, hfits, hdue⟩
        · rw [hreports, newReports, hcited, hd]
          simp [hgen]
        · rw [hruntime, committedRuntime, hcited]
          exact Std.ExtTreeMap.getElem?_insert_self

end Step

/-! ## The run of two files -/

/-- What every packet after the one `install` of `runFiles` keeps. -/
structure FirstRun (rules : RuleSet) (p : PacketPipeline) : Prop where
  wellFormed : p.WellFormed
  limits : p.limits = {}
  installed : p.rules = some rules
  reportInv : p.ReportInv
  named : ∀ id ∈ p.reports, ∃ urr ∈ rules.urrs,
    id = usageReportId rules.sessionId urr.id.value urr.generation rules.version
  sinks : ∀ side, (p.sinkOf side).length ≤ p.decisions.length

section FirstRun

variable {rules : RuleSet} {p p' : PacketPipeline} {packet : Packet} {d : PacketDecision}
  {runId scenarioId : String}

/-- The IDs are distinct, and there are no more of them than URRs. -/
theorem FirstRun.reports_length (h : FirstRun rules p) : p.reports.length ≤ 256 := by
  have hnodup : p.reports.Nodup := by
    rw [List.nodup_iff_getElem?_ne_getElem?]
    intro i j hlt hj hsame
    have hi : p.reports[i]? = some p.reports[j] := by rw [hsame, List.getElem?_eq_getElem hj]
    obtain ⟨urr, -, hid⟩ := h.named _ (List.getElem_mem hj)
    rw [hid] at hi
    have hj' : p.reports[j]?
        = some (usageReportId rules.sessionId urr.id.value urr.generation rules.version) := by
      rw [List.getElem?_eq_getElem hj, hid]
    exact Nat.ne_of_lt hlt (h.reportInv.once _ _ _ _ _ i j hi hj')
  have hsub : p.reports ⊆ rules.urrs.map fun urr =>
      usageReportId rules.sessionId urr.id.value urr.generation rules.version := by
    intro id hid
    obtain ⟨urr, hurr, rfl⟩ := h.named id hid
    exact List.mem_map.mpr ⟨urr, hurr, rfl⟩
  have hroom := (h.wellFormed.valid rules h.installed).urrRoom
  rw [h.limits] at hroom
  have hle := (List.subperm_of_subset hnodup hsub).length_le
  rw [List.length_map] at hle
  exact Nat.le_trans hle hroom

variable [InetText]

/-- **The ID of a decision is the ID committed**: with the limits of
`runFiles` no packet is turned away after its report was planned. -/
theorem FirstRun.reportStep (h : FirstRun rules p)
    (hexit : ProcessExit p packet d p') : ReportStep rules p packet d p' := by
  have hrules : ∀ {rules' winner far}, Attempt p packet rules' winner far → rules' = rules :=
    fun hat => Option.some.inj (hat.installed.symm.trans h.installed)
  cases hexit with
  | rejected hwhy _ _ hurr hkept =>
    refine .quiet (fun urr hr => ?_) (by rw [hurr]) hkept.reports
    obtain ⟨_, _, _, hat, -, -⟩ := hr.admitted
    exact hwhy.not_attempt hat
  | denied hat _ hcited hdenied _ _ _ hurr hkept =>
    refine .quiet (fun urr hr => ?_) (by rw [hurr]) hkept.reports
    have hallowed := (hr.of_attempt h.wellFormed hat).1 _ hcited
    rw [hdenied] at hallowed
    cases hallowed
  | limited hat _ hcited hdenied _ _ _ hurr _ hreports _ _ =>
    refine .quiet (fun urr hr => ?_) (by rw [hurr]) hreports
    have hallowed := (hr.of_attempt h.wellFormed hat).1 _ hcited
    rw [hdenied] at hallowed
    cases hallowed
  | overflow hat _ _ hcited hover _ _ hurr hkept =>
    refine .quiet (fun urr hr => ?_) ?_ hkept.reports
    · obtain ⟨-, hsome, hfits, -⟩ := hr.of_attempt h.wellFormed hat
      rw [hcited] at hsome
      cases hsome
      rw [hover] at hfits
      cases hfits
    · rw [hurr]
      refine evaluateUrr_quiet (Bool.eq_false_iff.mpr fun hgen => ?_)
      exact ((evaluateUrr_report_iff ..).mp hgen).1 ((evaluateUrr_overflow_iff ..).mp hover)
  | reportsFull _ _ _ _ _ _ hfull _ _ _ _ =>
    rw [h.limits] at hfull
    have hmax : (1024 : Nat) ≤ p.reports.length := hfull
    have hlength := h.reports_length
    omega
  | sinkFull hat _ _ _ _ hfull _ _ _ _ =>
    have hroom := hat.room
    rw [h.limits] at hfull hroom
    have hmax : (2048 : Nat) ≤ (p.sinkOf packet.ingress.opposite).length := hfull
    have hfew : p.decisions.length < 2048 := hroom
    have hsink := h.sinks packet.ingress.opposite
    omega
  | dropped hat _ hadmits _ _ _ _ hurr hruntime hreports _ _ =>
    obtain rfl := hrules hat
    exact reportStep_of_commit h.wellFormed hat hadmits hurr hruntime hreports
  | forwarded hat _ hadmits _ _ _ _ _ hurr hruntime hreports _ _ =>
    obtain rfl := hrules hat
    exact reportStep_of_commit h.wellFormed hat hadmits hurr hruntime hreports

/-- A call sends at most one packet to a side, with a retained decision. -/
theorem WellFormed.sinks_le (hwf : p.WellFormed) (hsinks : ∀ side,
    (p.sinkOf side).length ≤ p.decisions.length)
    (hprocess : p.process packet runId scenarioId = some (d, p')) (side : Interface) :
    (p'.sinkOf side).length ≤ p'.decisions.length := by
  cases hwf.answered (exec_process hprocess) with
  | installed hcall _ _ => cases hcall
  | full _ _ _ hafter =>
    subst hafter
    exact hsinks side
  | settled hcall _ _ hafter =>
    cases hcall
    subst hafter
    have hsent := (length_sentTo (p.verdict packet runId scenarioId).effect side).1
    have hbefore := hsinks side
    have hafter : ((p.settle (p.verdict packet runId scenarioId)).2.sinkOf side)
        = p.sinkOf side ++ (p.verdict packet runId scenarioId).effect.sentTo side := by
      rw [settle, ← applyEffect_sinkOf]
      cases side <;> simp [sinkOf]
    rw [hafter, settle, retain_decisions, List.length_append, List.length_append,
      applyEffect_decisions, List.length_singleton]
    omega

/-- **A packet keeps the first run.** -/
theorem FirstRun.step (h : FirstRun rules p)
    (hprocess : p.process packet runId scenarioId = some (d, p')) (hconfig : SameConfig p p')
    (hexit : ProcessExit p packet d p') : FirstRun rules p' where
  wellFormed := h.wellFormed.of_exit hconfig hexit
  limits := hconfig.limits.trans h.limits
  installed := hconfig.rules.trans h.installed
  reportInv := h.reportInv.process h.wellFormed hconfig hexit
  named := by
    cases h.reportStep hexit with
    | quiet _ _ hreports =>
      rw [hreports]
      exact h.named
    | @reported urr _ hurr _ hid _ hreports _ _ _ _ =>
      rw [hreports]
      intro id hmem
      rcases List.mem_append.mp hmem with hold | hnew
      · exact h.named id hold
      · rw [List.mem_singleton.mp hnew]
        exact ⟨urr, hurr, hid⟩
  sinks := h.wellFormed.sinks_le h.sinks hprocess

omit [InetText] in
theorem firstRun_install (hinstall : ((new {}).install rules).1 = .ok ()) :
    FirstRun rules ((new {}).install rules).2 := by
  have hstart : (new {}).ReportInv := ⟨atMostOnce_nil, fun _ hrules => by cases hrules⟩
  have houtcome := (wellFormed_new {}).install_outcome rules
  have hwf := houtcome.wellFormed (wellFormed_new {})
  have hinv := hstart.install houtcome fun _ _ _ _ hreported => by simp [new] at hreported
  cases houtcome with
  | rejected _ hresult _ => exact absurd hinstall hresult
  | accepted _ _ hinstalled =>
    rw [hinstalled] at hwf hinv ⊢
    exact ⟨hwf, rfl, rfl, hinv, fun _ hid => (by cases hid),
      fun side => by cases side <;> exact Nat.le_refl 0⟩

end FirstRun

/-! ## The entries of the document -/

/-- The decision of an event. -/
def decided (e : PipelineEvent) : Option PacketDecision :=
  match e.output with
  | .installed _ => none
  | .decided d => some d

/-- The entries an event adds to the document. -/
def entriesOf (e : PipelineEvent) : List Json := usageReports (decided e).toList

theorem usageReportId_isEmpty (s : String) (i g : UInt32) (v : UInt64) :
    (usageReportId s i g v).isEmpty = false := by
  simp [usageReportId]

theorem usageReports_cons (d : PacketDecision) (ds : List PacketDecision) :
    usageReports (d :: ds) = usageReports [d] ++ usageReports ds := by
  simp only [usageReports, List.filter_cons, List.filter_nil]
  split <;> simp

theorem usageReports_of_empty {d : PacketDecision} (h : d.urr.reportId = "") :
    usageReports [d] = [] := by
  simp [usageReports, h]

theorem usageReports_of_report {d : PacketDecision} (h : d.urr.reportId.isEmpty = false) :
    usageReports [d] = [usageReportJson d] := by
  simp [usageReports, h]

section Entries

variable {rules : RuleSet} {p p' : PacketPipeline} {packet : Packet} {d : PacketDecision}
  {runId scenarioId : String}

/-- An entry is right but for the generation and the threshold. -/
theorem entryAgrees_iff (hids : DistinctIds Urr.id rules.urrs) {urr : Urr} (hurr : urr ∈ rules.urrs)
    {usage : UsageCounterState} {runtime : RuntimeState}
    (hid : d.urr.reportId
      = usageReportId rules.sessionId urr.id.value urr.generation rules.version)
    (hnamed : d.urr.urrId = urr.id.value) (hentry : runtime.urrs[urr.id.value]? = some usage)
    (hpackets : d.urr.packetsAfter = usage.packets)
    (hbytes : d.urr.bytesAfter = usage.payloadBytes) :
    EntryAgrees rules (usageReportJson d) ⟨d.urr.reportId, runtime⟩ ↔
      urr.generation = 1 ∧ usage.payloadBytes.toNat = urr.volumeThresholdBytes.toNat := by
  have hgeneration : (usageReportJson d).number? "generation" = some 1 := rfl
  have hthreshold : (usageReportJson d).number? "thresholdBytes"
      = some (d.urr.bytesAfter.toNat : ℤ) := rfl
  have hurrId : (usageReportJson d).number? "urrId" = some (d.urr.urrId.toNat : ℤ) := rfl
  constructor
  · rintro ⟨-, urr', hurr', usage', hentry', -, hname, hgen, hthr, -, -⟩
    -- the entry names one URR of the ruleset
    have hsame : urr = urr' := by
      refine hids.eq_of_value hurr hurr' (UInt32.toNat_inj.mp ?_)
      rw [hurrId, hnamed] at hname
      exact_mod_cast Option.some.inj hname
    subst hsame
    rw [hgeneration] at hgen
    rw [hthreshold, hbytes] at hthr
    refine ⟨UInt32.toNat_inj.mp ?_, by exact_mod_cast Option.some.inj hthr⟩
    exact_mod_cast (Option.some.inj hgen).symm
  · rintro ⟨hgen, hthr⟩
    refine ⟨rfl, urr, hurr, usage, hentry, hid, ?_, ?_, ?_, ?_, ?_⟩
    · rw [hurrId, hnamed]
    · rw [hgeneration, hgen]
      rfl
    · rw [hthreshold, hbytes, hthr]
    · show some (d.urr.packetsAfter.toNat : ℤ) = _
      rw [hpackets]
    · show some (d.urr.bytesAfter.toNat : ℤ) = _
      rw [hbytes]

/-- What an event adds to the three lists of reports. -/
structure ReportsMatch (rules : RuleSet) (e : PipelineEvent) : Prop where
  length : (entriesOf e).length = (committedBy e).length
  reports : e.after.reports = e.before.reports ++ (committedBy e).map (·.reportId)
  agrees : List.Forall₂ (EntryAgrees rules) (entriesOf e) (committedBy e) ↔ ReachedExactly e

/-- **A packet adds to the three lists alike.** -/
theorem ReportStep.matched (h : ReportStep rules p packet d p')
    (hids : DistinctIds Urr.id rules.urrs) :
    ReportsMatch rules ⟨p, .process packet runId scenarioId, .decided d, p'⟩ := by
  cases h with
  | quiet hnot hid hreports =>
    have hentries : entriesOf ⟨p, .process packet runId scenarioId, .decided d, p'⟩ = [] :=
      usageReports_of_empty hid
    have hcommitted : committedBy ⟨p, .process packet runId scenarioId, .decided d, p'⟩ = [] := by
      simp [committedBy, hreports]
    refine ⟨by rw [hentries, hcommitted]; rfl, by simp [hcommitted, hreports], ?_⟩
    rw [hentries, hcommitted]
    refine ⟨fun _ packet' _ _ urr hinput hr => ?_, fun _ => .nil⟩
    cases hinput
    exact absurd hr (hnot urr)
  | @reported urr usage hurr hreaches hid hnamed hreports hentry hpackets hbytes hsum =>
    have hentries : entriesOf ⟨p, .process packet runId scenarioId, .decided d, p'⟩
        = [usageReportJson d] :=
      usageReports_of_report (by rw [hid]; exact usageReportId_isEmpty ..)
    have hcommitted : committedBy ⟨p, .process packet runId scenarioId, .decided d, p'⟩
        = [⟨d.urr.reportId, p'.runtime⟩] := by
      simp [committedBy, hreports]
    refine ⟨by rw [hentries, hcommitted]; rfl, by simp [hcommitted, hreports], ?_⟩
    rw [hentries, hcommitted, List.forall₂_cons,
      entryAgrees_iff hids hurr hid hnamed hentry hpackets hbytes, hsum]
    constructor
    · rintro ⟨hexact, -⟩ packet' _ _ urr' hinput hr
      cases hinput
      obtain rfl := (hreaches urr').mp hr
      exact hexact
    · intro hexact
      exact ⟨hexact packet runId scenarioId urr rfl ((hreaches urr).mpr rfl), .nil⟩

end Entries

/-! ## Runs -/

section Runs

variable [InetText] {rules : RuleSet} {p : PacketPipeline} {runId scenarioId : String}

/-- The loop of `runFiles` is a run of the pipeline. -/
theorem run_of_processAll {packets : List Packet} {p' : PacketPipeline} {ds : List PacketDecision}
    (h : processAll p runId scenarioId packets = some (ds, p')) :
    ∃ es, run exec p (packets.map (.process · runId scenarioId)) = some (es, p') ∧
      ds = es.filterMap decided := by
  induction packets generalizing p ds with
  | nil =>
    cases h
    exact ⟨[], rfl, rfl⟩
  | cons packet rest ih =>
    rw [processAll] at h
    cases hprocess : p.process packet runId scenarioId with
    | none => simp [hprocess] at h
    | some out =>
      obtain ⟨d, q⟩ := out
      simp only [hprocess] at h
      obtain ⟨⟨ds', q'⟩, hrest, heq⟩ := Option.map_eq_some_iff.mp h
      cases heq
      obtain ⟨es, hrun, rfl⟩ := ih hrest
      refine ⟨⟨p, .process packet runId scenarioId, .decided d, q⟩ :: es, ?_, rfl⟩
      rw [List.map_cons, run_cons _ _ _ (exec_process hprocess), hrun]
      rfl

omit [InetText] in
/-- The array of the document, event by event. -/
theorem usageReports_filterMap (es : List PipelineEvent) :
    usageReports (es.filterMap decided) = es.flatMap entriesOf := by
  induction es with
  | nil => rfl
  | cons e es ih =>
    rw [List.filterMap_cons, List.flatMap_cons, entriesOf]
    cases decided e with
    | none => exact ih
    | some d =>
      dsimp only [Option.toList_some]
      rw [usageReports_cons, ih]

/-- Every event of a first run adds to the three lists alike. -/
theorem FirstRun.events (h : FirstRun rules p) {packets : List Packet} {p' : PacketPipeline}
    {es : List PipelineEvent}
    (hrun : run exec p (packets.map (.process · runId scenarioId)) = some (es, p')) :
    (∀ e ∈ es, ReportsMatch rules e) ∧
      p'.reports = p.reports ++ (committedReports es).map (·.reportId) := by
  induction packets generalizing p es with
  | nil =>
    cases hrun
    exact ⟨fun e he => (by cases he), (List.append_nil _).symm⟩
  | cons packet rest ih =>
    obtain ⟨d, q, hprocess, hconfig, hexit⟩ := h.wellFormed.process_exit packet runId scenarioId
    rw [List.map_cons, run_cons _ _ _ (exec_process hprocess)] at hrun
    obtain ⟨⟨es', q'⟩, hrest, heq⟩ := Option.map_eq_some_iff.mp hrun
    cases heq
    obtain ⟨hmatch, hreports⟩ := ih (h.step hprocess hconfig hexit) hrest
    have hids := (h.wellFormed.valid rules h.installed).urrIds
    have hfirst : ReportsMatch rules ⟨p, .process packet runId scenarioId, .decided d, q⟩ :=
      (h.reportStep hexit).matched hids
    refine ⟨List.forall_mem_cons.mpr ⟨hfirst, hmatch⟩, ?_⟩
    rw [hreports, hfirst.reports, committedReports, committedReports, List.flatMap_cons,
      List.map_append, List.append_assoc]

end Runs

end PacketPipeline

/-! ## The two files -/

section Files

variable [InetText] [InetPton] [FloatCast] [ArgumentOrder] {files : String → FileContent}
  {rulesPath packetsPath : String}

/-- What the locals of `runFiles` are. -/
structure FileRun.Made (r : FileRun) : Prop where
  accepted : ((PacketPipeline.new {}).install r.rules).1 = .ok ()
  installed : r.installed = ((PacketPipeline.new {}).install r.rules).2
  processed : processAll r.installed r.result.runId r.result.scenarioId r.packets
    = some (r.result.decisions, r.pipeline)

theorem made_of_fileRun {r : FileRun} (h : fileRun files rulesPath packetsPath = .value r) :
    r.Made := by
  unfold fileRun at h
  simp only [Outcome.bind_eq_value, Outcome.ofExcept_eq_value] at h
  obtain ⟨_, -, _, -, rulesJson, -, packetsJson, -, _, -, _, -, rules, -, packets, -, _, haccepted,
    runId, -, scenarioId, -, h⟩ := h
  split at h
  · cases h
  · rename_i decisions final hprocessed
    cases h
    exact ⟨haccepted, rfl, hprocessed⟩

omit [InetPton] [FloatCast] [ArgumentOrder] in
/-- The limits of a file run are the default ones. -/
theorem FileRun.Made.limits {r : FileRun} (h : r.Made) : r.installed.limits = {} := by
  rw [h.installed]
  exact ((PacketPipeline.wellFormed_new {}).install_outcome r.rules).limits

/-- **Usage reports agree end to end** exactly when every URR a packet
brings to its threshold has generation 1 and is brought to it exactly. -/
theorem usage_reports_agree {result : RunResult}
    (h : runFiles files rulesPath packetsPath = .value result) :
    ∃ r es, fileRun files rulesPath packetsPath = .value r ∧ r.result = result ∧
      run PacketPipeline.exec r.installed
        (r.packets.map (.process · result.runId result.scenarioId)) = some (es, r.pipeline) ∧
      (PacketPipeline.ReportsAgree r.rules (renderJson result) es r.pipeline ↔
        ∀ e ∈ es, PacketPipeline.ReachedExactly e) := by
  obtain ⟨r, hfile, rfl⟩ := Outcome.map_eq_value.mp h
  have hmade := made_of_fileRun hfile
  obtain ⟨es, hrun, hdecisions⟩ := PacketPipeline.run_of_processAll hmade.processed
  have hfirst := PacketPipeline.firstRun_install hmade.accepted
  rw [← hmade.installed] at hfirst
  obtain ⟨hmatch, hreports⟩ := hfirst.events hrun
  have hnone : r.installed.reports = [] := by
    rw [hmade.installed, PacketPipeline.install]
    split <;> rfl
  rw [hnone, List.nil_append] at hreports
  have hentries : (renderJson r.result).member? "usageReports"
      = some (.array (es.flatMap PacketPipeline.entriesOf)) := by
    rw [← PacketPipeline.usageReports_filterMap, ← hdecisions]
    rfl
  have hagree := forall₂_flatMap_iff (R := PacketPipeline.EntryAgrees r.rules)
    fun e he => (hmatch e he).length
  refine ⟨r, es, hfile, rfl, hrun, ?_⟩
  constructor
  · rintro ⟨-, entries, hmember, hall⟩ e he
    rw [hentries] at hmember
    cases hmember
    exact (hmatch e he).agrees.mp (hagree.mp hall e he)
  · intro hexact
    exact ⟨hreports.symm, _, hentries, hagree.mpr fun e he => (hmatch e he).agrees.mpr (hexact e he)⟩

end Files

/-! ## A run that reports -/

@[reducible] def noFloats : FloatCast := ⟨fun _ _ => 0⟩

/-- Every call evaluates its second argument first. -/
@[reducible] def secondFirst : ArgumentOrder :=
  ⟨fun _ => true, fun _ => true, fun _ => true, fun _ => true⟩

/-- One uplink PDR with a FAR and a URR. -/
def countedRules (generation threshold : UInt64) : Json :=
  .object [
    ("sessionId", .string "session-1"), ("rulesetVersion", .unsigned 3),
    ("pdrs", .array [.object [
      ("id", .unsigned 10), ("precedence", .unsigned 100), ("sourceInterface", .string "N3"),
      ("teid", .unsigned 1001), ("uePrefix", .string "10.10.0.0/16"), ("farId", .unsigned 20),
      ("urrId", .unsigned 40)]]),
    ("fars", .array [.object [
      ("id", .unsigned 20), ("action", .string "FORWARD"), ("destinationInterface", .string "N6"),
      ("tunnelOperation", .string "REMOVE")]]),
    ("qers", .array []),
    ("urrs", .array [.object [
      ("id", .unsigned 40), ("volumeThresholdBytes", .unsigned threshold),
      ("generation", .unsigned generation)]])]

/-- One uplink packet of 1200 bytes. -/
def uplinkPackets : Json :=
  .object [
    ("runId", .string "run-1"), ("scenarioId", .string "counted"),
    ("packets", .array [.object [
      ("packetId", .string "pkt-ul-001"), ("sessionId", .string "session-1"),
      ("ingress", .string "N3"),
      ("tunnel", .object [("teid", .unsigned 1001), ("qfi", .unsigned 9)]),
      ("sourceIp", .string "10.10.0.7"), ("destinationIp", .string "192.0.2.20"),
      ("protocol", .string "UDP"), ("sourcePort", .unsigned 41000),
      ("destinationPort", .unsigned 443), ("payloadBytes", .unsigned 1200),
      ("arrivalTimeMicros", .unsigned 0)]])]

def twoFiles (rules packets : Json) (path : String) : FileContent :=
  if path = "rules.json" then .document rules
  else if path = "packets.json" then .document packets
  else .unreadable

/-- The run of two documents. -/
def runOf (rules packets : Json) : Outcome FileRun :=
  @fileRun noFloats dottedPton secondFirst PacketPipeline.dottedText (twoFiles rules packets)
    "rules.json" "packets.json"

theorem runFiles_runOf {rules packets : Json} (h : (runOf rules packets).toOption.isSome = true) :
    @runFiles noFloats dottedPton secondFirst PacketPipeline.dottedText (twoFiles rules packets)
      "rules.json" "packets.json" = .value ((runOf rules packets).toOption.get h).result :=
  Outcome.map_eq_value.mpr ⟨_, Outcome.eq_value_of_toOption (Option.some_get h).symm, rfl⟩

def countedFiles (generation threshold : UInt64) : String → FileContent :=
  twoFiles (countedRules generation threshold) uplinkPackets

/-- Generation 7 with a threshold of 1000 bytes. -/
def countedRun : Outcome FileRun := runOf (countedRules 7 1000) uplinkPackets

theorem countedRun_isSome : countedRun.toOption.isSome = true := by decide +kernel

theorem countedRun_eq : countedRun = .value (countedRun.toOption.get countedRun_isSome) :=
  Outcome.eq_value_of_toOption (Option.some_get countedRun_isSome).symm

theorem runFiles_counted :
    @runFiles noFloats dottedPton secondFirst PacketPipeline.dottedText (countedFiles 7 1000)
      "rules.json" "packets.json" = .value (countedRun.toOption.get countedRun_isSome).result :=
  runFiles_runOf countedRun_isSome

theorem usage_reports_agree_counted :
    ∃ r es, countedRun = .value r ∧ r.result = (countedRun.toOption.get countedRun_isSome).result ∧
      run (@PacketPipeline.exec PacketPipeline.dottedText) r.installed
        (r.packets.map (.process · r.result.runId r.result.scenarioId)) = some (es, r.pipeline) ∧
      (PacketPipeline.ReportsAgree r.rules (@renderJson PacketPipeline.dottedText r.result) es
        r.pipeline ↔ ∀ e ∈ es, PacketPipeline.ReachedExactly e) := by
  obtain ⟨r, es, hfile, hresult, hrun, hiff⟩ :=
    @usage_reports_agree PacketPipeline.dottedText dottedPton noFloats secondFirst _ _ _ _
      runFiles_counted
  rw [← hresult] at hrun hiff
  exact ⟨r, es, hfile, hresult, hrun, hiff⟩

/-- Every entry says generation 1. -/
theorem generation_of_mem_usageReports {ds : List PacketDecision} {entry : Json}
    (h : entry ∈ usageReports ds) : entry.number? "generation" = some 1 := by
  obtain ⟨d, -, rfl⟩ := List.mem_map.mp h
  rfl

/-- The entry for a URR of generation 7 says generation 1. -/
theorem generation_not_rendered :
    ¬ ∀ (files : String → FileContent) (rulesPath packetsPath : String) (result : RunResult),
      @runFiles noFloats dottedPton secondFirst PacketPipeline.dottedText files rulesPath
          packetsPath = .value result →
        ∃ r es, @fileRun noFloats dottedPton secondFirst PacketPipeline.dottedText files rulesPath
            packetsPath = .value r ∧ r.result = result ∧
          run (@PacketPipeline.exec PacketPipeline.dottedText) r.installed
            (r.packets.map (.process · result.runId result.scenarioId)) = some (es, r.pipeline) ∧
          PacketPipeline.ReportsAgree r.rules (@renderJson PacketPipeline.dottedText result) es
            r.pipeline := by
  intro h
  obtain ⟨r, es, hfile, -, -, hcommitted, entries, hentries, hall⟩ := h _ _ _ _ runFiles_counted
  have hr : countedRun.toOption.get countedRun_isSome = r :=
    Outcome.value.inj (countedRun_eq.symm.trans hfile)
  have hreports : (countedRun.toOption.get countedRun_isSome).pipeline.reports.length = 1 := by
    decide +kernel
  have hgenerations : ∀ urr ∈ (countedRun.toOption.get countedRun_isSome).rules.urrs,
      urr.generation = 7 := by
    decide +kernel
  have hshown : usageReports (countedRun.toOption.get countedRun_isSome).result.decisions = entries :=
    Json.array.inj (Option.some.inj hentries)
  rw [hr] at hreports hgenerations hshown
  rw [← hcommitted, List.length_map] at hreports
  generalize PacketPipeline.committedReports es = committed at hall hreports
  cases hall with
  | nil => cases hreports
  | @cons entry report _ _ hfirst _ =>
    have hone : entry.number? "generation" = some 1 :=
      generation_of_mem_usageReports (hshown ▸ List.mem_cons_self)
    obtain ⟨urr, hurr, _, -, -, -, hgeneration, -⟩ := hfirst.facts
    rw [hone, hgenerations urr hurr] at hgeneration
    cases hgeneration

end UpfPolicy
