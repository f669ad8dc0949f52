/-
UpfPolicy.Adapters.DocumentTheorems — the whole document and its contract.

`ContractTheorems` is about the decisions of a rendered result. The rest of
the document is built from the same decisions and from the sinks: an event
and, with a report ID, a usage report for each decision, and the packets
the decisions forwarded. So the document obeys the contract exactly when
its decisions do (`document_conforms_iff`).
-/
import UpfPolicy.Adapters.ResultTheorems
import UpfPolicy.Application.DeliveryTheorems

namespace UpfPolicy

open Support Support.Schema

/-! ## The parts -/

/-- The counters of a report that was generated. -/
structure UrrDecision.Counts (d : UrrDecision) : Prop where
  applicable : d.applicable = true
  packets : 1 ≤ d.packetsAfter.toNat
  bytes : 1 ≤ d.bytesAfter.toNat

/-- What the contract asks of a result. -/
structure RunResult.Fits [InetText] (r : RunResult) : Prop where
  decisions : ∀ d ∈ r.decisions, d.Fits
  reports : ∀ d ∈ r.decisions, d.urr.reportId.isEmpty = false → d.urr.Counts
  n3Sink : ∀ packet ∈ r.n3Sink, Contracts.packet (packetJson packet) = true
  n6Sink : ∀ packet ∈ r.n6Sink, Contracts.packet (packetJson packet) = true

theorem one_le_toNat64 {n : UInt64} : 1 ≤ n.toNat ↔ n ≠ 0 := by
  rw [Nat.one_le_iff_ne_zero, ne_eq, ne_eq, ← UInt64.toNat_inj]
  rfl

/-- A version is written as null where it is zero. -/
theorem versionJson_conforms (version : UInt64) :
    Contracts.nullableId (versionJson version) = true := by
  cases hzero : version != 0 with
  | false => rw [versionJson, hzero]; rfl
  | true =>
    have hne := one_le_toNat64.mpr (bne_iff_ne.mp hzero)
    rw [versionJson, hzero]
    simpa [Contracts.nullableId, nullUnless, typed_unsigned, minimum_unsigned] using hne

theorem event_conforms (result : RunResult) {i : Nat} (hi : i + 1 < 2 ^ 64) {d : PacketDecision}
    (hversion : d.rulesetVersion ≠ 0) : Contracts.event (eventJson result i d) = true := by
  have hsequence : 1 ≤ (UInt64.ofNat (i + 1)).toNat := by
    rw [UInt64.toNat_ofNat_of_lt' hi]
    exact Nat.le_add_left 1 i
  have hnullable : Contracts.nullableId (.unsigned d.rulesetVersion) = true := by
    simpa [Contracts.nullableId, typed_unsigned, minimum_unsigned] using one_le_toNat64.mpr hversion
  rw [Contracts.event, eventJson, record_aligned rfl (by decide) (by decide)]
  simp only [List.zip_cons_cons, List.zip_nil_left, List.forall_mem_cons, List.not_mem_nil,
    false_imp_iff, implies_true, integerFrom_unsigned, enum_string, hnullable, and_true]
  exact ⟨by simp, rfl, rfl, hsequence, Nat.zero_le _, rfl, by simp, rfl, rfl, rfl, rfl, trivial, rfl⟩

theorem usageReport_conforms {d : PacketDecision} (hid : d.urr.urrId ≠ 0)
    (hversion : d.rulesetVersion ≠ 0) (hcounts : d.urr.Counts) :
    Contracts.usageReport (usageReportJson d) = true := by
  rw [Contracts.usageReport, usageReportJson, record_aligned rfl (by decide) (by decide)]
  simp only [List.zip_cons_cons, List.zip_nil_left, List.forall_mem_cons, List.not_mem_nil,
    false_imp_iff, implies_true, integerFrom_unsigned, unsigned32, UInt32.toNat_toUInt64, and_true]
  exact ⟨rfl, rfl, one_le_toNat.mpr hid, by decide, one_le_toNat64.mpr hversion, hcounts.packets,
    Nat.zero_le _, hcounts.bytes⟩

theorem state_conforms (result : RunResult) :
    Contracts.state (.object [
      ("intendedVersion", versionJson result.intendedVersion),
      ("appliedVersion", versionJson result.appliedVersion),
      ("activeVersion", versionJson result.activeVersion),
      ("convergence", .string (convergenceName result.convergence))]) = true := by
  have hname : enum ["CONVERGED", "DIVERGENT", "EMPTY"]
      (.string (convergenceName result.convergence)) = true := by
    cases result.convergence <;> decide
  rw [Contracts.state, record_aligned rfl (by decide) (by decide)]
  simp only [List.zip_cons_cons, List.zip_nil_left, List.forall_mem_cons, List.not_mem_nil,
    false_imp_iff, implies_true, versionJson_conforms, hname, and_self]

/-- **A document whose parts fit obeys the contract.** -/
theorem RunResult.Fits.conforms [InetText] {r : RunResult} (h : r.Fits)
    (hsize : r.decisions.length < 2 ^ 64) : Contracts.result (renderJson r) = true := by
  have hdecisions : ∀ j ∈ r.decisions.map decisionJson, Contracts.decision j = true :=
    List.forall_mem_map.mpr fun d hd => (decision_iff d).mpr (h.decisions d hd)
  have hevents : ∀ j ∈ r.decisions.mapIdx (eventJson r), Contracts.event j = true := by
    intro j hj
    obtain ⟨i, hi, rfl⟩ := List.mem_mapIdx.mp hj
    exact event_conforms r (by omega) (h.decisions _ (List.getElem_mem hi)).version
  have hreports : ∀ j ∈ UpfPolicy.usageReports r.decisions, Contracts.usageReport j = true := by
    intro j hj
    obtain ⟨d, hd, rfl⟩ := List.mem_map.mp hj
    obtain ⟨hmem, hreport⟩ := List.mem_filter.mp hd
    have hcounts := h.reports d hmem (by simpa using hreport)
    exact usageReport_conforms ((h.decisions d hmem).urr hcounts.applicable)
      (h.decisions d hmem).version hcounts
  rw [Contracts.result, renderJson, record_aligned rfl (by decide) (by decide)]
  simp only [List.zip_cons_cons, List.zip_nil_left, List.forall_mem_cons, List.not_mem_nil,
    false_imp_iff, implies_true, arrayOf_array, integerFrom_unsigned, enum_string, state_conforms,
    and_true]
  exact ⟨by simp, rfl, rfl, by simp [disclaimer], hdecisions, hevents, hreports,
    List.forall_mem_map.mpr h.n3Sink, List.forall_mem_map.mpr h.n6Sink, trivial, rfl, Nat.zero_le _⟩

theorem decisionsConform_of_result [InetText] {r : RunResult}
    (h : Contracts.result (renderJson r) = true) : DecisionsConform (renderJson r) := by
  have hmember : (renderJson r).member? "decisions" = some (.array (r.decisions.map decisionJson)) :=
    rfl
  refine ⟨_, hmember, arrayOf_array.mp ?_⟩
  exact record_member h (by simp) hmember

/-! ## Reports -/

/-- A report has counted a packet and at least its threshold. -/
theorem UrrSection.counts {urrs : List Urr} {d : UrrDecision} (h : UrrSection urrs d)
    (hthresholds : ∀ urr ∈ urrs, 1 ≤ urr.volumeThresholdBytes.toNat)
    (hreport : d.reportId.isEmpty = false) : d.Counts := by
  cases h with
  | uncited => cases hreport
  | @counted urr hurr current payloadBytes sessionId rulesetVersion =>
    have hpositive := hthresholds urr hurr
    have hgenerated : (evaluateUrr urr current payloadBytes sessionId rulesetVersion).reportGenerated
        = true := by
      rw [← Bool.not_eq_false]
      intro hquiet
      rw [evaluateUrr_quiet hquiet] at hreport
      cases hreport
    cases evaluateUrr_outcome urr current payloadBytes sessionId rulesetVersion with
    | overflow _ _ _ hnone =>
      rw [hgenerated] at hnone
      cases hnone
    | counted _ _ hpackets hbytes hafterPackets hafterBytes hdue _ _ =>
      obtain ⟨-, hreached⟩ := hdue.mp hgenerated
      refine ⟨(evaluateUrr_facts ..).applicable, ?_, ?_⟩
      · rw [hafterPackets]
        omega
      · rw [hafterBytes]
        omega

namespace PacketPipeline

section Runs

variable [InetText] {rules : RuleSet} {p p' : PacketPipeline} {packets : List Packet}
  {ds : List PacketDecision} {runId scenarioId : String}

/-- The decisions of a first run have sections for the installed URRs. -/
theorem FirstRun.urrSections (h : FirstRun rules p)
    (hall : processAll p runId scenarioId packets = some (ds, p')) :
    ∀ d ∈ ds, UrrSection rules.urrs d.urr := by
  induction packets generalizing p ds with
  | nil =>
    cases hall
    exact fun d hd => absurd hd List.not_mem_nil
  | cons packet packets ih =>
    obtain ⟨d, q, hprocess, hconfig, hexit⟩ := h.wellFormed.process_exit packet runId scenarioId
    rw [processAll, hprocess] at hall
    obtain ⟨⟨ds', q'⟩, hrest, heq⟩ := Option.map_eq_some_iff.mp hall
    cases heq
    have hurrs : p.urrs = rules.urrs := by rw [urrs, h.installed, Option.map_some, Option.getD_some]
    obtain ⟨-, -, hsection⟩ := h.wellFormed.process_sections hprocess
    exact List.forall_mem_cons.mpr
      ⟨hurrs ▸ hsection, ih (h.step hprocess hconfig hexit) hrest⟩

omit [InetText] in
/-- A packet in a sink is the transformed packet of a decision. -/
theorem SinksExact.delivered {es : List PipelineEvent} (h : SinksExact es p) {side : Interface}
    {out : Packet} (hout : out ∈ p.sinkOf side) :
    ∃ d ∈ es.filterMap decided, d.transformedPresent = true ∧ d.transformedPacket = some out := by
  have hsink : ∀ result, (result = .forwardedToN3 ∨ result = .forwardedToN6) →
      out ∈ es.filterMap (deliveredAs result) →
      ∃ d ∈ es.filterMap decided, d.transformedPresent = true ∧ d.transformedPacket = some out := by
    intro result hresult hmem
    obtain ⟨e, he, hdelivered⟩ := List.mem_filterMap.mp hmem
    unfold deliveredAs at hdelivered
    cases houtput : e.output with
    | installed r =>
      rw [houtput] at hdelivered
      cases hdelivered
    | decided d =>
      rw [houtput] at hdelivered
      obtain ⟨hterminal, hcontent⟩ := Option.ite_none_right_eq_some.mp hdelivered
      have hmarks := h.marks e he d houtput
      refine ⟨d, List.mem_filterMap.mpr ⟨e, he, by rw [decided, houtput]⟩, ?_, hcontent⟩
      rw [hmarks.transformed]
      exact hmarks.sink.mpr (hterminal ▸ hresult)
  cases side with
  | n3 => exact hsink .forwardedToN3 (.inl rfl) (h.n3 ▸ hout)
  | n6 => exact hsink .forwardedToN6 (.inr rfl) (h.n6 ▸ hout)

end Runs

end PacketPipeline

/-! ## The two files -/

section Files

variable [InetText] [InetPton] [FloatCast] [ArgumentOrder] {files : String → FileContent}
  {rulesPath packetsPath : String}

omit [InetText] in
/-- The thresholds of a document that obeys the rules contract are positive. -/
theorem thresholds_of_contract {rulesJson : Json} {rules : RuleSet}
    (hcontract : Contracts.rules rulesJson = true) (hparse : parseRules rulesJson = .value rules) :
    ∀ urr ∈ rules.urrs, 1 ≤ urr.volumeThresholdBytes.toNat := by
  have hread : readRules rulesJson = .value rules := Outcome.rescue_eq_value.mp hparse
  unfold readRules at hread
  simp only [Outcome.bind_eq_value] at hread
  obtain ⟨_, -, _, -, _, -, _, -, _, -, _, -, _, -, _, -, _, -, _, -, _, -, _, -, _, -, v, hv, items,
    hitems, urrs, heach, hrules⟩ := hread
  cases hrules
  have hlist : arrayOf Contracts.urr v = true :=
    record_member hcontract (by simp) (Json.atKey_eq_value hv)
  have hall : ∀ item ∈ items, Contracts.urr item = true := by
    cases v with
    | array elements =>
      cases hitems
      exact arrayOf_array.mp hlist
    | null | boolean | integer | unsigned | float | string | object => cases hlist
  have hparsed := Outcome.each_eq_value heach
  clear hparse heach hitems hlist
  induction hparsed with
  | nil => exact fun urr hurr => absurd hurr List.not_mem_nil
  | @cons item urr _ _ hitem _ ih =>
    obtain ⟨hfirst, hrest⟩ := List.forall_mem_cons.mp hall
    refine List.forall_mem_cons.mpr ⟨?_, ih hrest⟩
    unfold parseUrr at hitem
    simp only [Outcome.bind_eq_value] at hitem
    obtain ⟨_, -, _, -, w, hw, threshold, hthreshold, _, -, _, -, hurr⟩ := hitem
    cases hurr
    have hbounds : integerIn 1 18446744073709551615 w = true :=
      record_member hfirst (by simp) (Json.atKey_eq_value hw)
    obtain ⟨n, hn, hlow, hhigh⟩ := isNumber_of_integerIn hbounds
    have hlt : n < UInt64.size := Nat.lt_of_le_of_lt hhigh (by decide)
    have hexact := (Reads.getUInt64 w).only (.ofNat n) (by rwa [UInt64.toNat_ofNat_of_lt' hlt])
    have hsame := ((Reads.getUInt64 w).states_iff hthreshold).mpr hexact
    have heq : threshold.toNat = n := by
      have hboth := hsame.symm.trans hn
      exact_mod_cast Option.some.inj hboth
    rw [heq]
    exact hlow

/-- The rules of a run are those of its document. -/
theorem rules_of_fileRun {r : FileRun} {rulesJson : Json}
    (hrules : files rulesPath = .document rulesJson)
    (h : fileRun files rulesPath packetsPath = .value r) : parseRules rulesJson = .value r.rules := by
  unfold fileRun at h
  simp only [Outcome.bind_eq_value, Outcome.ofExcept_eq_value, readJson, hrules] at h
  obtain ⟨_, hread, _, -, rulesJson', hdocument, packetsJson, -, _, hparse, _, -, rules, hok,
    packets, -, _, -, runId, -, scenarioId, -, h⟩ := h
  cases hread
  cases hdocument
  cases hok
  split at h
  · cases h
  · cases h
    exact Outcome.result_eq_ok.mp hparse

/-- **The rendered document obeys the published contract** exactly when
every open QER that a packet's winner cites can be refilled: outside the
QER sections of its decisions nothing of it can break the contract. -/
theorem document_conforms_iff (htext : TextFits) {rulesJson packetsJson : Json}
    (hrules : files rulesPath = .document rulesJson)
    (hrulesContract : Contracts.rules rulesJson = true)
    (hpackets : files packetsPath = .document packetsJson)
    (hpacketsContract : Contracts.packets packetsJson = true) {result : RunResult}
    (h : runFiles files rulesPath packetsPath = .value result)
    (hsize : result.decisions.length < 2 ^ 64) :
    ∃ r es, fileRun files rulesPath packetsPath = .value r ∧ r.result = result ∧
      run PacketPipeline.exec r.installed
        (r.packets.map (.process · result.runId result.scenarioId)) = some (es, r.pipeline) ∧
      (Contracts.result (renderJson result) = true ↔ ∀ e ∈ es, PacketPipeline.QerServes e) := by
  obtain ⟨r, hfile, rfl⟩ := Outcome.map_eq_value.mp h
  have hmade := made_of_fileRun hfile
  obtain ⟨es, hrun, hdecisions⟩ := PacketPipeline.run_of_processAll hmade.processed
  have hfirst := PacketPipeline.firstRun_install hmade.accepted
  have hrecorded : Recorded PacketPipeline.exec (PacketPipeline.new {}) _ r.pipeline :=
    Recorded.cons (PacketPipeline.exec_install _ r.rules)
      (recorded_of_run (hmade.installed ▸ hrun))
  have hsinks := PacketPipeline.sinksExact_of_recorded hrecorded
  rw [← hmade.installed] at hfirst
  have hnamed := named_of_contract hpacketsContract (packets_of_fileRun hpackets hfile)
  have hevents := PacketPipeline.events_fit htext hnamed hfirst.wellFormed hfirst.installed hrun
  have hthresholds := thresholds_of_contract hrulesContract (rules_of_fileRun hrules hfile)
  have hsections := hfirst.urrSections hmade.processed
  have hcopied := copied_of_fileRun hfile
  refine ⟨r, es, hfile, rfl, hrun, ?_⟩
  constructor
  · intro hconforms e he
    have hfits := (renderJson_conforms_iff r.result).mp (decisionsConform_of_result hconforms)
    obtain ⟨d, hd, hiff⟩ := hevents e he
    exact hiff.mp (hfits d (hdecisions ▸ List.mem_filterMap.mpr ⟨e, he, hd⟩))
  · intro hserves
    have hfits : ∀ d ∈ r.result.decisions, d.Fits := by
      intro d hd
      rw [hdecisions] at hd
      obtain ⟨e, he, hdecided⟩ := List.mem_filterMap.mp hd
      obtain ⟨d', hd', hiff⟩ := hevents e he
      cases hd'.symm.trans hdecided
      exact hiff.mpr (hserves e he)
    have hdelivered : ∀ side, ∀ packet ∈ r.pipeline.sinkOf side,
        Contracts.packet (packetJson packet) = true := by
      intro side packet hpacket
      obtain ⟨d, hd, hpresent, hcontent⟩ := hsinks.delivered hpacket
      refine (hfits d ?_).transformed hpresent packet hcontent
      rw [hdecisions]
      exact hd
    refine RunResult.Fits.conforms ⟨hfits, ?_, ?_, ?_⟩ hsize
    · exact fun d hd => (hsections d hd).counts hthresholds
    · rw [hcopied]
      exact hdelivered .n3
    · rw [hcopied]
      exact hdelivered .n6

end Files

theorem document_conforms_prompt :
    ∃ r es, runOf meteredRules promptPackets = .value r ∧
      run (@PacketPipeline.exec PacketPipeline.dottedText) r.installed
        (r.packets.map (.process · r.result.runId r.result.scenarioId)) = some (es, r.pipeline) ∧
      r.result.decisions.length = 3 ∧
      Contracts.result (@renderJson PacketPipeline.dottedText r.result) = true ∧
      ∀ e ∈ es, PacketPipeline.QerServes e := by
  have hdecisions : ((runOf meteredRules promptPackets).toOption.get
      promptRun_isSome).result.decisions.length = 3 := by decide +kernel
  have hdocument : Contracts.result (@renderJson PacketPipeline.dottedText
      ((runOf meteredRules promptPackets).toOption.get promptRun_isSome).result) = true := by
    decide +kernel
  obtain ⟨r, es, hfile, hresult, hrun, hiff⟩ :=
    @document_conforms_iff PacketPipeline.dottedText dottedPton noFloats secondFirst
      (twoFiles meteredRules promptPackets) "rules.json" "packets.json" dottedText_fits meteredRules
      promptPackets rfl meteredRules_conforms rfl promptPackets_conforms _
      (runFiles_runOf promptRun_isSome) (by rw [hdecisions]; decide)
  rw [← hresult] at hdecisions hdocument hrun hiff
  exact ⟨r, es, hfile, hrun, hdecisions, hdocument, hiff.mp hdocument⟩

end UpfPolicy
