/-
UpfPolicy.Application.ReportTheorems — how often a URR is reported.

A report ID names its session, URR, generation and ruleset version
(`usageReportId_inj`). `reports_once` says that no session, URR and
generation are reported twice, as long as no `install` takes a URR in again
whose report is out and whose emitted flag is not held any more.
-/
import UpfPolicy.Application.UsageTheorems
import UpfPolicy.Support.Numerals

namespace UpfPolicy

open Support

/-! ## Report IDs -/

/-- **A report ID can be read back.** -/
theorem usageReportId_inj {s s' : String} {i i' g g' : UInt32} {v v' : UInt64}
    (h : usageReportId s i g v = usageReportId s' i' g' v') :
    s = s' ∧ i = i' ∧ g = g' ∧ v = v' := by
  unfold usageReportId at h
  obtain ⟨h, hv⟩ := append_mark_repr_inj ['-'] 'v' (by decide) (by decide) h
  obtain ⟨h, hg⟩ := append_mark_repr_inj ['-'] 'g' (by decide) (by decide) h
  obtain ⟨h, hi⟩ := append_mark_repr_inj ['-', 'u', 'r', 'r'] '-' (by decide) (by decide) h
  exact ⟨h, UInt32.toNat_inj.mp hi, UInt32.toNat_inj.mp hg, UInt64.toNat_inj.mp hv⟩

theorem evaluateUrr_reportId {urr : Urr} {current : UsageCounterState} {payloadBytes : UInt64}
    {sessionId : String} {rulesetVersion : UInt64}
    (h : (evaluateUrr urr current payloadBytes sessionId rulesetVersion).reportGenerated = true) :
    (evaluateUrr urr current payloadBytes sessionId rulesetVersion).decision.reportId
      = usageReportId sessionId urr.id.value urr.generation rulesetVersion := by
  cases evaluateUrr_outcome urr current payloadBytes sessionId rulesetVersion with
  | overflow _ _ _ hreport => exact absurd (hreport.symm.trans h) Bool.false_ne_true
  | counted _ _ _ _ _ _ _ _ hid => exact hid h

/-- **The ID of a report names the report**, whatever the session ID holds. -/
theorem evaluateUrr_reportId_eq_iff {urr urr' : Urr} {current current' : UsageCounterState}
    {payloadBytes payloadBytes' : UInt64} {sessionId sessionId' : String}
    {rulesetVersion rulesetVersion' : UInt64}
    (h : (evaluateUrr urr current payloadBytes sessionId rulesetVersion).reportGenerated = true)
    (h' : (evaluateUrr urr' current' payloadBytes' sessionId' rulesetVersion').reportGenerated
      = true) :
    (evaluateUrr urr current payloadBytes sessionId rulesetVersion).decision.reportId
        = (evaluateUrr urr' current' payloadBytes' sessionId' rulesetVersion').decision.reportId ↔
      sessionId = sessionId' ∧ urr.id.value = urr'.id.value ∧ urr.generation = urr'.generation ∧
        rulesetVersion = rulesetVersion' := by
  rw [evaluateUrr_reportId h, evaluateUrr_reportId h']
  constructor
  · exact usageReportId_inj
  · rintro ⟨rfl, hid, hgeneration, rfl⟩
    rw [hid, hgeneration]

/-- A session whose ID is the beginning of another's report ID. -/
theorem evaluateUrr_reportId_nested :
    (evaluateUrr { id := ⟨2⟩ } {} 1 "s-urr-1-g1-v1" 1).decision.reportId
        = (evaluateUrr { id := ⟨1⟩ } {} 1 "s" 1).decision.reportId ↔
      "s-urr-1-g1-v1" = "s" ∧ (2 : UInt32) = 1 ∧ (1 : UInt32) = 1 ∧ (1 : UInt64) = 1 :=
  evaluateUrr_reportId_eq_iff (by decide +kernel) (by decide +kernel)

/-- No session, URR and generation are reported at two places of the list. -/
def AtMostOnce (reports : List String) : Prop :=
  ∀ s i g v w, ∀ j k : Nat, reports[j]? = some (usageReportId s i g v) →
    reports[k]? = some (usageReportId s i g w) → j = k

theorem atMostOnce_nil : AtMostOnce [] := by
  intro _ _ _ _ _ _ _ h
  simp at h

/-- A report for something not reported yet may be added. -/
theorem AtMostOnce.snoc {reports : List String} (h : AtMostOnce reports) {s : String}
    {i g : UInt32} (hnew : ∀ v, usageReportId s i g v ∉ reports) (v₀ : UInt64) :
    AtMostOnce (reports ++ [usageReportId s i g v₀]) := by
  -- a place of the longer list is an old place, or the last one
  have hplace : ∀ {j : Nat} {r : String}, (reports ++ [usageReportId s i g v₀])[j]? = some r →
      reports[j]? = some r ∨ (j = reports.length ∧ r = usageReportId s i g v₀) := by
    intro j r hj
    rw [List.getElem?_append] at hj
    split at hj
    · exact Or.inl hj
    · rename_i hlen
      rw [List.getElem?_singleton] at hj
      split at hj
      · exact Or.inr ⟨by omega, (Option.some.inj hj).symm⟩
      · cases hj
  have hold : ∀ {j : Nat} {v : UInt64}, reports[j]? ≠ some (usageReportId s i g v) :=
    fun hj => hnew _ (List.mem_of_getElem? hj)
  intro s' i' g' v w j k hj hk
  rcases hplace hj with hj' | ⟨hj', hv⟩
  · rcases hplace hk with hk' | ⟨-, hw⟩
    · exact h s' i' g' v w j k hj' hk'
    · obtain ⟨rfl, rfl, rfl, -⟩ := usageReportId_inj hw
      exact absurd hj' hold
  · rcases hplace hk with hk' | ⟨hk', -⟩
    · obtain ⟨rfl, rfl, rfl, -⟩ := usageReportId_inj hv
      exact absurd hk' hold
    · rw [hj', hk']

namespace PacketPipeline

/-! ## The invariant -/

/-- What is not emitted yet has not been reported. -/
structure ReportInv (p : PacketPipeline) : Prop where
  once : AtMostOnce p.reports
  armed : ∀ rules, p.rules = some rules → ∀ urr ∈ rules.urrs,
    (p.usageOf urr).reportEmitted = false →
      ∀ v, usageReportId rules.sessionId urr.id.value urr.generation v ∉ p.reports

/-- An `install` of these rules takes in no URR that was reported, unless its
emitted flag is still held under its generation. -/
def KeepsReported (p : PacketPipeline) (rules : RuleSet) : Prop :=
  ∀ urr ∈ rules.urrs, ∀ v,
    usageReportId rules.sessionId urr.id.value urr.generation v ∈ p.reports →
      ∃ state, p.runtime.urrs[urr.id.value]? = some state ∧
        p.runtime.urrGenerations[urr.id.value]? = some urr.generation ∧
        state.reportEmitted = true

def InstallKeepsReported (e : PipelineEvent) : Prop :=
  ∀ rules, e.input = .install rules → e.output = .installed (.ok ()) →
    e.before.KeepsReported rules

section Step

variable {p p' : PacketPipeline}

theorem ReportInv.install (h : p.ReportInv) {rules : RuleSet} {result : Except String Unit}
    (houtcome : InstallOutcome p rules result p')
    (hkeeps : result = .ok () → p.KeepsReported rules) : p'.ReportInv := by
  cases houtcome with
  | rejected _ _ hkept => rw [hkept]; exact h
  | accepted hvalid hresult hinstalled =>
    have hreports : p'.reports = p.reports := by rw [hinstalled]
    have hrules : p'.rules = some rules := by rw [hinstalled]
    refine ⟨hreports ▸ h.once, fun rules' hrules' urr hurr hemitted v hmem => ?_⟩
    obtain rfl := Option.some.inj (hrules.symm.trans hrules')
    rw [hreports] at hmem
    obtain ⟨state, hstate, hgen, hflag⟩ := hkeeps hresult urr hurr v hmem
    have hcarried : p.runtime.urrStore.carried urr.item = state :=
      Store.carried_of_entry hstate hgen
    rw [usageOf_installed hvalid hinstalled hurr, hcarried, hflag] at hemitted
    cases hemitted

/-- The emitted flag is never taken back by a packet. -/
theorem UsageStep.emitted_false [InetText] {rules : RuleSet} {urr : Urr} {e : PipelineEvent}
    {current next : UsageCounterState} (hstep : UsageStep rules urr e current next)
    (h : next.reportEmitted = false) : current.reportEmitted = false := by
  cases hstep with
  | keep _ hnext => rw [← hnext]; exact h
  | count _ hnext _ =>
    have hfired := (congrArg Tally.fired hnext).symm.trans h
    exact (Bool.or_eq_false_iff.mp hfired).1

theorem ReportInv.process [InetText] (h : p.ReportInv) (hwf : p.WellFormed) {packet : Packet}
    {d : PacketDecision} (hconfig : SameConfig p p') (hexit : ProcessExit p packet d p') :
    p'.ReportInv := by
  -- a packet that reports nothing keeps what is armed
  have hquiet : p'.reports = p.reports → p'.ReportInv := by
    intro hreports
    refine ⟨hreports ▸ h.once, fun rules hrules urr hurr hemitted v => ?_⟩
    rw [hconfig.rules] at hrules
    rw [hreports]
    exact h.armed rules hrules urr hurr
      ((usageStep hwf hrules hurr hexit.effect "" "").emitted_false hemitted) v
  cases hexit.effect with
  | nothing _ _ hreports => exact hquiet hreports
  | refill _ _ _ _ _ _ hreports => exact hquiet hreports
  | @commit rules pdr _ _ hat _ hcounts hruntime hreports =>
    cases hcited : citedUrr rules pdr with
    | none =>
      rw [newReports, hcited, List.append_nil] at hreports
      exact hquiet hreports
    | some cited =>
      have hmem := (citedUrr_mem hcited).1
      have haccounted := account_counted (hcounts cited hcited).1
      rw [newReports, hcited] at hreports
      by_cases hgen : (p.account rules packet cited).reportGenerated = true
      · simp only [hgen, if_true, haccounted.reportId hgen] at hreports
        obtain ⟨hunfired, hcross⟩ := haccounted.report.mp hgen
        refine ⟨?_, fun rules' hrules' urr hurr hemitted v hreported => ?_⟩
        · rw [hreports]
          exact h.once.snoc (h.armed rules hat.installed cited hmem hunfired) rules.version
        · rw [hconfig.rules] at hrules'
          obtain rfl := Option.some.inj (hat.installed.symm.trans hrules')
          have hids := (hwf.valid rules hat.installed).urrIds
          have hurrs : p'.runtime.urrs = p.runtime.urrs.insert cited.id.value
              (p.account rules packet cited).next := by
            have hall := congrArg RuntimeState.urrs hruntime
            rw [committedRuntime, hcited] at hall
            exact hall
          rcases usageOf_insert hids hmem hurr hurrs with ⟨rfl, hnext⟩ | ⟨hne, hnext⟩
          · -- the URR that was just reported is not armed any more
            have hfired := congrArg Tally.fired haccounted.next
            rw [← hnext] at hfired
            have hset := hfired.symm.trans hemitted
            simp [hcross] at hset
          · rw [hreports, List.mem_append, List.mem_singleton] at hreported
            rcases hreported with hold | hnew
            · rw [hnext] at hemitted
              exact h.armed rules hat.installed urr hurr hemitted v hold
            · obtain ⟨-, hid, -, -⟩ := usageReportId_inj hnew
              exact hne (hids.eq_of_value hmem hurr hid.symm ▸ rfl)
      · simp only [hgen, Bool.false_eq_true, if_false, List.append_nil] at hreports
        exact hquiet hreports

end Step

/-! ## Runs -/

/-- The invariant holds along a run that keeps what was reported. -/
theorem reportInv_of_recorded [InetText] {limits : CapacityLimits} {p : PacketPipeline}
    {es : List PipelineEvent} (hrun : Recorded exec (new limits) es p)
    (hinstalls : ∀ e ∈ es, InstallKeepsReported e) :
    p.ReportInv ∧ ∀ e ∈ es, e.after.ReportInv := by
  induction hrun with
  | nil => exact ⟨⟨atMostOnce_nil, fun _ h => (by cases h)⟩, fun _ h => (by cases h)⟩
  | @snoc es s t call reply hprev hexec ih =>
    obtain ⟨hinv, hevents⟩ := ih fun e he => hinstalls e (List.mem_append_left _ he)
    have hwf := wellFormed_of_recorded hprev
    have hlast := hinstalls ⟨s, call, reply, t⟩ (by simp)
    have ht : t.ReportInv := by
      cases hwf.exec_outcome hexec with
      | install hcall hreply houtcome =>
        subst hcall hreply
        exact hinv.install houtcome fun hok => hlast _ rfl (by rw [hok])
      | process hcall hreply hconfig hexit => exact hinv.process hwf hconfig hexit
    exact ⟨ht, forall_mem_snoc hevents ht⟩

/-- **One report per session, URR and generation**, in every state of every
run whose accepted `install`s keep what was reported. -/
theorem reports_once [InetText] {limits : CapacityLimits} {calls : List PipelineCall}
    {es : List PipelineEvent} {p : PacketPipeline}
    (hrun : run exec (new limits) calls = some (es, p))
    (hinstalls : ∀ e ∈ es, InstallKeepsReported e) :
    AtMostOnce p.reports ∧ ∀ e ∈ es, AtMostOnce e.after.reports := by
  obtain ⟨hinv, hevents⟩ := reportInv_of_recorded (recorded_of_run hrun) hinstalls
  exact ⟨hinv.once, fun e he => (hevents e he).once⟩

/-- The second install takes in a URR that was reported and is still held. -/
theorem reports_once_kept :
    ∃ es p, keptRun = some (es, p) ∧ p.reports = [usageReportId "session-1" 40 1 3] ∧
      AtMostOnce p.reports ∧ ∀ e ∈ es, AtMostOnce e.after.reports := by
  have hheld : ∀ e ∈ (keptRun.get keptRun_isSome).1, e.before.reports = [] ∨
      e.before.runtime.urrs[(40 : UInt32)]?.map (·.reportEmitted) = some true ∧
        e.before.runtime.urrGenerations[(40 : UInt32)]? = some 1 := by decide +kernel
  have hreports : (keptRun.get keptRun_isSome).2.reports
      = [usageReportId "session-1" 40 1 3] := by decide +kernel
  have hrun : keptRun = some ((keptRun.get keptRun_isSome).1, (keptRun.get keptRun_isSome).2) :=
    (Option.some_get keptRun_isSome).symm
  refine ⟨_, _, hrun, hreports, @reports_once dottedText {} keptCalls _ _ hrun ?_⟩
  intro e he rules hinput _ urr hurr v hreported
  have hurrs : urr = { id := ⟨40⟩, volumeThresholdBytes := 1000 } := by
    have hcall : e.input ∈ keptCalls := map_input_of_run hrun ▸ List.mem_map_of_mem he
    rw [hinput] at hcall
    simp only [keptCalls, List.mem_cons, List.not_mem_nil, or_false, reduceCtorEq, false_or,
      PipelineCall.install.injEq] at hcall
    obtain rfl | rfl := hcall <;> exact List.mem_singleton.mp hurr
  subst hurrs
  obtain hnone | ⟨hemitted, hgeneration⟩ := hheld e he
  · rw [hnone] at hreported
    cases hreported
  · obtain ⟨state, hstate, hflag⟩ := Option.map_eq_some_iff.mp hemitted
    exact ⟨state, hstate, hgeneration, hflag⟩

/-- The same rules without the URR. -/
def uncountedRules : RuleSet :=
  { basicRules with version := 4, pdrs := basicRules.pdrs.map ({ · with urrId := none }), urrs := [] }

def rearmedRun : Option (List PipelineEvent × PacketPipeline) :=
  run (@exec dottedText) (new {})
    [.install (lowThresholdRules 3), .process uplinkPacket "r" "s", .install uncountedRules,
      .install (lowThresholdRules 5), .process uplinkPacket "r" "s"]

theorem rearmedRun_isSome : rearmedRun.isSome = true := by decide +kernel

/-- A URR that is dropped and taken in again reports its generation twice. -/
theorem reported_twice :
    ¬ ∀ (limits : CapacityLimits) (calls : List PipelineCall) (es : List PipelineEvent)
        (p : PacketPipeline), run (@exec dottedText) (new limits) calls = some (es, p) →
      AtMostOnce p.reports := by
  intro h
  have honce := h {} _ (rearmedRun.get rearmedRun_isSome).1 (rearmedRun.get rearmedRun_isSome).2
    (Option.some_get rearmedRun_isSome).symm
  have hreports : (rearmedRun.get rearmedRun_isSome).2.reports
      = [usageReportId "session-1" 40 1 3, usageReportId "session-1" 40 1 5] := by decide +kernel
  rw [hreports] at honce
  exact absurd (honce "session-1" 40 1 3 5 0 1 rfl rfl) (by decide)

end PacketPipeline

end UpfPolicy
