/-
UpfPolicy.Adapters.ResultTheorems — the result of a file run.

`runFiles` copies the decisions, the sinks and the version into its result
and leaves the two observability fields as they were built. It installs one
ruleset on a pipeline with the default limits. There the results are the
one capacity that can be used up: a first run has at most one report for
each of 256 URRs, at most one sent packet for each retained decision, and
room for four times as many events as results. `file_run_exact` says what
follows for every pair of files.
-/
import UpfPolicy.Adapters.DecisionTheorems

namespace UpfPolicy

open Support

namespace PacketPipeline

/-! ## One packet of a first run -/

/-- Every retained decision has its event. -/
structure Observed (p : PacketPipeline) : Prop where
  events : p.events = p.decisions.map fun d => terminalResultName d.terminalResult
  dropped : p.droppedEvents = 0

/-- What a packet of a first run does to the record. -/
inductive FirstStep (p : PacketPipeline) (d : PacketDecision) (p' : PacketPipeline) : Prop where
  | kept (hroom : p.decisions.length < 2048) (hresult : d.terminalResult ≠ .capacityError)
      (hdecisions : p'.decisions = p.decisions ++ [d])
  | full (hfull : 2048 ≤ p.decisions.length) (hresult : d.terminalResult = .capacityError)
      (hkept : p' = p)

section Step

variable {rules : RuleSet} {p p' : PacketPipeline} {packet : Packet} {d : PacketDecision}
  {runId scenarioId : String}

/-- There is always room for a report, -/
theorem FirstRun.reports_room (h : FirstRun rules p) :
    p.reports.length < p.limits.reports.toNat := by
  rw [h.limits]
  exact Nat.lt_of_le_of_lt h.reports_length (by decide)

/-- and for a packet, while there is room for its result. -/
theorem FirstRun.sink_room (h : FirstRun rules p) (hroom : p.decisions.length < 2048)
    (side : Interface) : (p.sinkOf side).length < p.limits.sinkPackets.toNat := by
  rw [h.limits]
  exact Nat.lt_of_le_of_lt (h.sinks side) hroom

/-- With room for its result, a packet of a first run is never turned away
for want of room. -/
theorem FirstRun.not_capacityError (h : FirstRun rules p) (hroom : p.decisions.length < 2048)
    (hexit : ProcessExit p packet d p') : d.terminalResult ≠ .capacityError := by
  cases hexit with
  | rejected hwhy hresult _ _ _ =>
    rw [hresult]
    cases hwhy with
    | resultsFull hfull =>
      rw [h.limits] at hfull
      exact absurd hfull (Nat.not_le.mpr hroom)
    | noRules | malformed | noMatch => decide
  | denied _ _ _ hdenied _ hresult _ _ _ =>
    rw [hresult]
    rcases evaluateQer_failure _ _ _ _ hdenied with hf | hf | hf <;> rw [meter, hf] <;> decide
  | limited _ _ _ _ _ hresult _ _ _ _ _ _ =>
    rw [hresult]
    decide
  | overflow _ _ _ _ _ hresult _ _ _ =>
    rw [hresult]
    decide
  | reportsFull _ _ _ _ _ _ hfull _ _ _ _ => exact absurd hfull (Nat.not_le.mpr h.reports_room)
  | sinkFull _ _ _ _ _ hfull _ _ _ _ =>
    exact absurd hfull (Nat.not_le.mpr (h.sink_room hroom _))
  | dropped _ _ _ _ _ hresult _ _ _ _ _ _ =>
    rw [hresult]
    decide
  | forwarded _ _ _ _ _ _ hresult _ _ _ _ _ _ =>
    rw [hresult]
    cases packet.ingress <;> decide

/-- **One packet of a first run.** -/
theorem FirstRun.firstStep [InetText] (h : FirstRun rules p) (ho : p.Observed)
    (hprocess : p.process packet runId scenarioId = some (d, p')) (hexit : ProcessExit p packet d p') :
    FirstStep p d p' ∧ d.observabilityDegraded = false ∧ p'.Observed := by
  have hresults : p.limits.results.toNat = 2048 := by rw [h.limits]; rfl
  have hevents : p.limits.events.toNat = 8192 := by rw [h.limits]; rfl
  by_cases hroom : p.decisions.length < 2048
  · have hresult := h.not_capacityError hroom hexit
    rw [h.wellFormed.process_eq (hresults ▸ hroom)] at hprocess
    have hsections : Sections (p.header packet runId scenarioId) p.urrs _ :=
      h.wellFormed.verdict_sections
    generalize p.verdict packet runId scenarioId = r at hprocess hsections
    have hd : (p.settle r).1 = d := congrArg Prod.fst (Option.some.inj hprocess)
    have hp' : (p.settle r).2 = p' := congrArg Prod.snd (Option.some.inj hprocess)
    have hfree : (p.applyEffect r.effect).events.length
        < (p.applyEffect r.effect).limits.events.toNat := by
      rw [applyEffect_events, applyEffect_limits, hevents, ho.events, List.length_map]
      omega
    rw [settle, retain, if_pos hfree] at hd hp'
    subst hd hp'
    refine ⟨.kept hroom hresult rfl, hsections.observed, ?_, ho.dropped⟩
    simp [ho.events]
  · rw [process_of_full (hresults ▸ Nat.not_lt.mp hroom)] at hprocess
    cases hprocess
    exact ⟨.full (Nat.not_lt.mp hroom) rfl rfl, rfl, ho⟩

end Step

/-! ## All packets -/

/-- What the loop of `runFiles` returns, from a pipeline that may already
hold decisions. -/
structure AllExact (p : PacketPipeline) (runId scenarioId : String) (packets : List Packet)
    (ds : List PacketDecision) (p' : PacketPipeline) : Prop where
  headings : ds.map (·.heading) = packets.map (p.header · runId scenarioId)
  capacity : ∀ i d, ds[i]? = some d →
    (d.terminalResult = .capacityError ↔ 2048 ≤ p.decisions.length + i)
  retained : p'.decisions = p.decisions ++ ds.take (2048 - p.decisions.length)
  undegraded : ∀ d ∈ ds, d.observabilityDegraded = false
  observed : p'.Observed

section All

variable {rules : RuleSet} {p q p' : PacketPipeline} {packet : Packet} {packets : List Packet}
  {d : PacketDecision} {ds : List PacketDecision} {runId scenarioId : String}

/-- One packet in front. -/
theorem AllExact.cons (h : AllExact q runId scenarioId packets ds p') (hrules : q.rules = p.rules)
    (hheading : d.heading = p.header packet runId scenarioId) (hstep : FirstStep p d q)
    (hclean : d.observabilityDegraded = false) :
    AllExact p runId scenarioId (packet :: packets) (d :: ds) p' where
  headings := by
    have hheader : ∀ x, q.header x runId scenarioId = p.header x runId scenarioId := fun x => by
      rw [header, header, hrules]
    rw [List.map_cons, List.map_cons, hheading, h.headings]
    simp only [hheader]
  capacity := by
    intro i d' hi
    cases i with
    | zero =>
      cases hi
      cases hstep with
      | kept hroom hresult _ => exact iff_of_false hresult (Nat.not_le.mpr hroom)
      | full hfull hresult _ => exact iff_of_true hresult hfull
    | succ i =>
      rw [h.capacity i d' hi]
      cases hstep with
      | kept _ _ hdecisions => grind
      | full hfull _ hkept => grind
  retained := by
    rw [h.retained]
    cases hstep with
    | kept hroom _ hdecisions =>
      rw [hdecisions, List.length_append, List.length_singleton,
        show 2048 - p.decisions.length = 2048 - (p.decisions.length + 1) + 1 by omega,
        List.take_succ_cons, List.append_assoc, List.singleton_append]
    | full hfull _ hkept =>
      rw [hkept, Nat.sub_eq_zero_of_le hfull, List.take_zero, List.take_zero]
  undegraded := List.forall_mem_cons.mpr ⟨hclean, h.undegraded⟩
  observed := h.observed

/-- **All packets of a first run**, by induction on them. -/
theorem FirstRun.allExact [InetText] (h : FirstRun rules p) (ho : p.Observed)
    (hall : processAll p runId scenarioId packets = some (ds, p')) :
    AllExact p runId scenarioId packets ds p' := by
  induction packets generalizing p ds with
  | nil =>
    cases hall
    exact ⟨rfl, by simp, by simp, by simp, ho⟩
  | cons packet packets ih =>
    obtain ⟨d, q, hprocess, hconfig, hexit⟩ := h.wellFormed.process_exit packet runId scenarioId
    rw [processAll, hprocess] at hall
    obtain ⟨⟨ds', q'⟩, hrest, heq⟩ := Option.map_eq_some_iff.mp hall
    cases heq
    obtain ⟨hstep, hclean, hobserved⟩ := h.firstStep ho hprocess hexit
    exact (ih (h.step hprocess hconfig hexit) hobserved hrest).cons hconfig.rules
      (h.wellFormed.process_sections hprocess).1 hstep hclean

end All

end PacketPipeline

/-! ## The two files -/

/-- The result of a file run says of the pipeline what is true of it. -/
structure FileRun.Exact (r : FileRun) : Prop where
  headings : r.result.decisions.map (·.heading)
    = r.packets.map (r.installed.header · r.result.runId r.result.scenarioId)
  capacity : ∀ i d, r.result.decisions[i]? = some d →
    (d.terminalResult = .capacityError ↔ 2048 ≤ i)
  retained : r.pipeline.decisions = r.result.decisions.take 2048
  events : r.pipeline.events
    = (r.result.decisions.take 2048).map fun d => terminalResultName d.terminalResult
  undegraded : ∀ d ∈ r.result.decisions, d.observabilityDegraded = false
  droppedEvents : r.result.droppedEvents = r.pipeline.droppedEvents
  observabilityDegraded : r.result.observabilityDegraded = r.pipeline.observabilityDegraded
  n3Sink : r.result.n3Sink = r.pipeline.n3Sink
  n6Sink : r.result.n6Sink = r.pipeline.n6Sink
  version : r.installed.rules = some r.rules ∧ r.result.intendedVersion = r.rules.version ∧
    r.result.appliedVersion = r.rules.version ∧ r.result.activeVersion = r.rules.version

section Files

variable [InetText] [InetPton] [FloatCast] [ArgumentOrder] {files : String → FileContent}
  {rulesPath packetsPath : String}

/-- What `runFiles` copies into its result besides the decisions. -/
theorem copied_of_fileRun {r : FileRun} (h : fileRun files rulesPath packetsPath = .value r) :
    r.result = {
      runId := r.result.runId
      scenarioId := r.result.scenarioId
      decisions := r.result.decisions
      n3Sink := r.pipeline.n3Sink
      n6Sink := r.pipeline.n6Sink
      intendedVersion := r.rules.version
      appliedVersion := r.rules.version
      activeVersion := r.rules.version
      convergence := .converged } := by
  unfold fileRun at h
  simp only [Outcome.bind_eq_value, Outcome.ofExcept_eq_value] at h
  obtain ⟨_, -, _, -, rulesJson, -, packetsJson, -, _, -, _, -, rules, -, packets, -, _, -,
    runId, -, scenarioId, -, h⟩ := h
  split at h
  · cases h
  · cases h
    rfl

/-- **The result of every accepted file run is exact**: a decision for each
packet, in order, that names the packet and the installed version; the
first 2048 retained with their events, and CAPACITY_ERROR from then on and
only then; nothing degraded and nothing dropped. -/
theorem file_run_exact {result : RunResult}
    (h : runFiles files rulesPath packetsPath = .value result) :
    ∃ r, fileRun files rulesPath packetsPath = .value r ∧ r.result = result ∧ r.Exact := by
  obtain ⟨r, hfile, rfl⟩ := Outcome.map_eq_value.mp h
  have hmade := made_of_fileRun hfile
  have hfirst := PacketPipeline.firstRun_install hmade.accepted
  have hempty : r.installed.decisions = [] := by
    rw [hmade.installed]
    unfold PacketPipeline.install
    split <;> rfl
  have hobserved : r.installed.Observed := by
    refine ⟨?_, ?_⟩
    · rw [hempty, hmade.installed]
      unfold PacketPipeline.install
      split <;> rfl
    · rw [hmade.installed]
      unfold PacketPipeline.install
      split <;> rfl
  rw [← hmade.installed] at hfirst
  obtain ⟨hheadings, hcapacity, hretained, hundegraded, hafter⟩ :=
    hfirst.allExact hobserved hmade.processed
  rw [hempty] at hcapacity hretained
  have hkept : r.pipeline.decisions = r.result.decisions.take 2048 := hretained
  have hcopied := copied_of_fileRun hfile
  refine ⟨r, hfile, rfl, hheadings, ?_, hkept, ?_, hundegraded, ?_, ?_, ?_, ?_, hfirst.installed, ?_⟩
  · intro i d hi
    rw [hcapacity i d hi, List.length_nil, Nat.zero_add]
  · rw [hafter.events, hkept]
  · rw [hcopied, hafter.dropped]
  · rw [hcopied, PacketPipeline.observabilityDegraded, hafter.dropped]
    rfl
  · rw [hcopied]
  · rw [hcopied]
  · rw [hcopied]
    exact ⟨rfl, rfl, rfl⟩

end Files

theorem file_run_exact_counted :
    ∃ r, countedRun = .value r ∧ r.result = (countedRun.toOption.get countedRun_isSome).result ∧
      r.Exact :=
  @file_run_exact PacketPipeline.dottedText dottedPton noFloats secondFirst _ _ _ _ runFiles_counted

end UpfPolicy
