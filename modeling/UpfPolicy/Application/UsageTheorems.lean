/-
UpfPolicy.Application.UsageTheorems — the usage counters over whole runs.

One packet moves the counters of an installed URR by one step of the
abstract tally of `Support.Tally` (`usageStep`): not at all, or by one
packet with its original payload, reporting when the total first reaches
the installed threshold.

`usage_exact` sums this over a run: from the `install` that created the
counters on, and for as long as every later ruleset keeps the URR under its
generation, the counters are the exact count and the exact sum of the
committed packets, and exactly the first packet to reach the threshold adds
a report.
-/
import UpfPolicy.Application.ProcessTheorems
import UpfPolicy.Support.Tally

namespace UpfPolicy

open Support

/-- The counters as a tally. -/
def UsageCounterState.tally (s : UsageCounterState) : Tally :=
  ⟨s.packets.toNat, s.payloadBytes.toNat, s.reportEmitted⟩

namespace PacketPipeline

/-! ## What an event counts and reports -/

section Measure

variable [InetText]

/-- The size of a committed packet counted by a URR, and the threshold
installed at that moment. -/
def usageMeasure (id : UrrId) (e : PipelineEvent) : Option (Nat × Nat) :=
  (committedPacket e).bind fun (pdr, packet) =>
    if pdr.urrId = some id then
      some (packet.payloadBytes.toNat,
        ((e.before.rules.bind (findUrr · id)).map (·.volumeThresholdBytes.toNat)).getD 0)
    else none

/-- The IDs an event adds to the reports for a URR. -/
def reportsOf (id : UrrId) (e : PipelineEvent) : List String :=
  if (usageMeasure id e).isSome then e.after.reports.drop e.before.reports.length else []

def reportsFor (id : UrrId) (es : List PipelineEvent) : List String := es.flatMap (reportsOf id)

theorem reportsFor_snoc (id : UrrId) (es : List PipelineEvent) (e : PipelineEvent) :
    reportsFor id (es ++ [e]) = reportsFor id es ++ reportsOf id e := by
  simp [reportsFor]

theorem reportsOf_of_none {id : UrrId} {e : PipelineEvent} (h : usageMeasure id e = none) :
    reportsOf id e = [] := by
  simp [reportsOf, h]

theorem reportsOf_of_some {id : UrrId} {e : PipelineEvent} {m : Nat × Nat} {added : List String}
    (h : usageMeasure id e = some m) (hreports : e.after.reports = e.before.reports ++ added) :
    reportsOf id e = added := by
  simp [reportsOf, h, hreports]

end Measure

/-! ## One packet -/

/-- How the counters of a URR move, and what the event reports. -/
inductive UsageStep [InetText] (rules : RuleSet) (urr : Urr) (e : PipelineEvent)
    (current next : UsageCounterState) : Prop where
  | keep (hmeasure : usageMeasure urr.id e = none) (hnext : next = current)
  | count {size : Nat}
      (hmeasure : usageMeasure urr.id e = some (size, urr.volumeThresholdBytes.toNat))
      (hnext : next.tally = ⟨current.tally.count + 1, current.tally.total + size,
        current.tally.fired ||
          decide (urr.volumeThresholdBytes.toNat ≤ current.tally.total + size)⟩)
      (hreports : e.after.reports = e.before.reports ++
        if current.tally.fired = false ∧
            urr.volumeThresholdBytes.toNat ≤ current.tally.total + size then
          [usageReportId rules.sessionId urr.id.value urr.generation rules.version]
        else [])

section Step

variable {p p' : PacketPipeline} {packet : Packet} {d : PacketDecision} {rules : RuleSet}
  {winner : Pdr} {urr : Urr}

/-- An overwritten entry is the one of the URR it was written for. -/
theorem usageOf_insert (hids : DistinctIds Urr.id rules.urrs) {cited : Urr}
    (hcited : cited ∈ rules.urrs) (hurr : urr ∈ rules.urrs) {next : UsageCounterState}
    (hurrs : p'.runtime.urrs = p.runtime.urrs.insert cited.id.value next) :
    (cited = urr ∧ p'.usageOf urr = next) ∨ (cited.id ≠ urr.id ∧ p'.usageOf urr = p.usageOf urr) := by
  by_cases hsame : cited.id.value = urr.id.value
  · have heq := hids.eq_of_value hcited hurr hsame
    subst heq
    refine Or.inl ⟨rfl, ?_⟩
    rw [usageOf, hurrs, Std.ExtTreeMap.getElem?_insert_self, Option.getD_some]
  · refine Or.inr ⟨fun hid => hsame (congrArg RuleId.value hid), ?_⟩
    rw [usageOf, hurrs, getElem?_insert_of_ne _ _ hsame, usageOf]

/-- What an admitted packet does to the counters and the reports. -/
structure Accounted (p : PacketPipeline) (rules : RuleSet) (packet : Packet) (urr : Urr) : Prop where
  next : (p.account rules packet urr).next.tally =
    ⟨(p.usageOf urr).tally.count + 1, (p.usageOf urr).tally.total + packet.payloadBytes.toNat,
      (p.usageOf urr).tally.fired || decide (urr.volumeThresholdBytes.toNat
        ≤ (p.usageOf urr).tally.total + packet.payloadBytes.toNat)⟩
  report : (p.account rules packet urr).reportGenerated = true ↔
    (p.usageOf urr).tally.fired = false ∧
      urr.volumeThresholdBytes.toNat
        ≤ (p.usageOf urr).tally.total + packet.payloadBytes.toNat
  reportId : (p.account rules packet urr).reportGenerated = true →
    (p.account rules packet urr).decision.reportId
      = usageReportId rules.sessionId urr.id.value urr.generation rules.version

theorem account_counted (hfits : (p.account rules packet urr).overflow = false) :
    Accounted p rules packet urr := by
  cases evaluateUrr_outcome urr (p.usageOf urr) packet.payloadBytes.toUInt64 rules.sessionId
      rules.version with
  | overflow _ hflag _ _ => rw [account, hflag] at hfits; cases hfits
  | counted _ _ hpackets hbytes _ _ hreport hemitted hid =>
    rw [payload_toNat] at hbytes
    have hdue : (p.account rules packet urr).reportGenerated = true ↔
        (p.usageOf urr).tally.fired = false ∧ urr.volumeThresholdBytes.toNat
          ≤ (p.usageOf urr).tally.total + packet.payloadBytes.toNat := by
      rw [← payload_toNat]; exact hreport
    refine ⟨?_, hdue, hid⟩
    rw [UsageCounterState.tally, account, hpackets, hbytes, hemitted, ← account]
    congr 1
    -- a report is generated when the threshold is reached for the first time
    cases hfired : (p.usageOf urr).tally.fired with
    | true =>
      rw [show (p.usageOf urr).reportEmitted = true from hfired]
      rfl
    | false =>
      rw [show (p.usageOf urr).reportEmitted = false from hfired, Bool.false_or, Bool.false_or]
      rw [hfired] at hdue
      simp only [true_and] at hdue
      exact Bool.eq_iff_iff.mpr (hdue.trans decide_eq_true_iff.symm)

/-- **One packet moves the counters by one step.** -/
theorem usageStep [InetText] (h : p.WellFormed) (hrules : p.rules = some rules)
    (hurr : urr ∈ rules.urrs) (heffect : ProcessEffect p packet d p') (runId scenarioId : String) :
    UsageStep rules urr ⟨p, .process packet runId scenarioId, .decided d, p'⟩ (p.usageOf urr)
      (p'.usageOf urr) := by
  have hvalid := h.valid rules hrules
  cases heffect with
  | nothing hresult hruntime _ =>
    refine .keep ?_ (by rw [usageOf, hruntime, usageOf])
    simp only [usageMeasure, committedPacket, hresult, Bool.false_eq_true, if_false, Option.bind_none]
  | refill hresult _ _ _ _ hruntime _ =>
    refine .keep ?_ (by rw [usageOf, hruntime, usageOf])
    simp only [usageMeasure, committedPacket, hresult, Bool.false_eq_true, if_false, Option.bind_none]
  | @commit _ pdr _ hresult hat _ hcounts hruntime hreports =>
    obtain rfl := Option.some.inj (hrules.symm.trans hat.installed)
    have hfind : findUrr rules urr.id = some urr := hvalid.findUrr_eq_some.mpr ⟨hurr, rfl⟩
    have hmeasure : usageMeasure urr.id ⟨p, .process packet runId scenarioId, .decided d, p'⟩
        = if pdr.urrId = some urr.id then
            some (packet.payloadBytes.toNat, urr.volumeThresholdBytes.toNat)
          else none := by
      simp only [usageMeasure, committedPacket, hresult, if_true, hat.winner_eq h, Option.map_some,
        Option.bind_some, hrules, hfind, Option.getD_some]
    have hurrs : p'.runtime.urrs = (p.committedRuntime rules packet pdr).urrs :=
      congrArg RuntimeState.urrs hruntime
    cases hcited : citedUrr rules pdr with
    | none =>
      have huncited : pdr.urrId ≠ some urr.id := by
        intro hid
        rw [citedUrr, hid, Option.bind_some, hfind] at hcited
        cases hcited
      rw [committedRuntime, hcited] at hurrs
      exact .keep (by rw [hmeasure, if_neg huncited]) (by rw [usageOf, hurrs, usageOf])
    | some cited =>
      obtain ⟨hmem, hid⟩ := citedUrr_mem hcited
      rw [committedRuntime, hcited] at hurrs
      rw [hid] at hmeasure
      rcases usageOf_insert hvalid.urrIds hmem hurr hurrs with ⟨rfl, hnext⟩ | ⟨hne, hnext⟩
      · have haccounted := account_counted (hcounts cited hcited).1
        rw [if_pos rfl] at hmeasure
        refine .count hmeasure (hnext ▸ haccounted.next) ?_
        rw [hreports, newReports, hcited]
        by_cases hgen : (p.account rules packet cited).reportGenerated = true
        · rw [if_pos (haccounted.report.mp hgen), ← haccounted.reportId hgen]
          simp only [hgen, if_true]
        · rw [if_neg (fun hdue => hgen (haccounted.report.mpr hdue))]
          simp only [hgen, Bool.false_eq_true, if_false]
      · rw [if_neg (fun heq => hne (Option.some.inj heq))] at hmeasure
        exact .keep hmeasure hnext

end Step

/-! ## Runs since the counters were created -/

/-- An accepted `install` keeps the URR under its generation. -/
def KeepsUsage (id : UrrId) (generation : UInt32) (e : PipelineEvent) : Prop :=
  ∀ rules, e.input = .install rules → e.output = .installed (.ok ()) →
    ∃ urr ∈ rules.urrs, urr.id = id ∧ urr.generation = generation

/-- The counters account exactly for a list of events. -/
structure ExactUsage [InetText] (id : UrrId) (generation : UInt32) (es : List PipelineEvent)
    (state : UsageCounterState) : Prop where
  packets : state.packets.toNat = (counted (usageMeasure id) es).length
  payloadBytes : state.payloadBytes.toNat = (counted (usageMeasure id) es).sum
  /-- No packet reached the threshold: nothing was reported. -/
  quiet : (∀ pre e post, es = pre ++ e :: post → ¬ CrossesAt (usageMeasure id) pre e) →
    reportsFor id es = [] ∧ state.reportEmitted = false
  /-- The first packet that did is the one that reported. -/
  crossed : ∀ pre e post, es = pre ++ e :: post → FirstCrossing (usageMeasure id) pre e →
    state.reportEmitted = true ∧ reportsOf id e = reportsFor id es ∧
      ∃ rules, e.before.rules = some rules ∧ reportsFor id es =
        [usageReportId rules.sessionId id.value generation rules.version]

/-- The invariant of a run that keeps a URR. -/
structure UsageInv [InetText] (id : UrrId) (generation : UInt32) (es : List PipelineEvent)
    (p : PacketPipeline) : Prop where
  wellFormed : p.WellFormed
  installed : ∃ rules, p.rules = some rules ∧
    ∃ urr ∈ rules.urrs, urr.id = id ∧ urr.generation = generation ∧
      Tallied (usageMeasure id) es (p.usageOf urr).tally ∧
      ((p.usageOf urr).tally.fired = false → reportsFor id es = []) ∧
      ((p.usageOf urr).tally.fired = true → ∃ pre e post, es = pre ++ e :: post ∧
        FirstCrossing (usageMeasure id) pre e ∧ reportsOf id e = reportsFor id es ∧
        ∃ rules, e.before.rules = some rules ∧ reportsFor id es =
          [usageReportId rules.sessionId id.value generation rules.version])

section Runs

variable [InetText] {p p' : PacketPipeline} {id : UrrId} {generation : UInt32}
  {es : List PipelineEvent}

/-- An event that counts nothing for the URR and leaves its counters alone
keeps the invariant. -/
theorem UsageInv.keep (h : UsageInv id generation es p) {e : PipelineEvent}
    (hwf : p'.WellFormed) (hmeasure : usageMeasure id e = none) {rules' : RuleSet}
    (hrules' : p'.rules = some rules') {urr' : Urr} (hurr' : urr' ∈ rules'.urrs)
    (hid : urr'.id = id) (hgen : urr'.generation = generation)
    (husage : ∀ urr, urr.id = id → p'.usageOf urr' = p.usageOf urr) :
    UsageInv id generation (es ++ [e]) p' := by
  obtain ⟨-, rules, -, urr, -, hurrId, -, htallied, hquiet, hfired⟩ := h
  have hsame := husage urr hurrId
  have hreports : reportsFor id (es ++ [e]) = reportsFor id es := by
    rw [reportsFor_snoc, reportsOf_of_none hmeasure, List.append_nil]
  refine ⟨hwf, rules', hrules', urr', hurr', hid, hgen, ?_, ?_, ?_⟩
  · rw [hsame]
    exact htallied.skip hmeasure
  · rw [hsame, hreports]
    exact hquiet
  · rw [hsame, hreports]
    intro hf
    obtain ⟨pre, x, post, rfl, hrest⟩ := hfired hf
    exact ⟨pre, x, post ++ [e], by simp, hrest⟩

/-- A packet keeps the invariant. -/
theorem UsageInv.process (h : UsageInv id generation es p) {packet : Packet} {d : PacketDecision}
    (hconfig : SameConfig p p') (hexit : ProcessExit p packet d p') (runId scenarioId : String) :
    UsageInv id generation (es ++ [⟨p, .process packet runId scenarioId, .decided d, p'⟩]) p' := by
  have hinv := h
  obtain ⟨hwf, rules, hrules, urr, hurr, rfl, rfl, htallied, hquiet, hfired⟩ := h
  have hrules' : p'.rules = some rules := hconfig.rules.trans hrules
  have hwf' := hwf.of_exit hconfig hexit
  have hstep := usageStep hwf hrules hurr hexit.effect runId scenarioId
  generalize hevent : (⟨p, .process packet runId scenarioId, .decided d, p'⟩ : PipelineEvent) = e
    at hstep
  have hbefore : e.before.rules = some rules := by rw [← hevent]; exact hrules
  cases hstep with
  | keep hmeasure hnext =>
    refine hinv.keep hwf' hmeasure hrules' hurr rfl rfl fun urr' hid => ?_
    rw [hnext, usageOf, usageOf, hid]
  | @count size hmeasure hnext hreports =>
    have hadded := reportsOf_of_some hmeasure hreports
    refine ⟨hwf', rules, hrules', urr, hurr, rfl, rfl, ?_, ?_, ?_⟩
    · rw [hnext]
      exact htallied.count hmeasure
    · rw [hnext, Bool.or_eq_false_iff, decide_eq_false_iff_not]
      rintro ⟨hf, hnot⟩
      rw [reportsFor_snoc, hquiet hf, hadded, if_neg (fun hdue => hnot hdue.2)]
      rfl
    · rw [hnext, Bool.or_eq_true, decide_eq_true_eq]
      intro hor
      by_cases hf : (p.usageOf urr).tally.fired = true
      · obtain ⟨pre, x, post, rfl, hfirst, hof, hrep⟩ := hfired hf
        have hnone : ¬ ((p.usageOf urr).tally.fired = false ∧
            urr.volumeThresholdBytes.toNat ≤ (p.usageOf urr).tally.total + size) := by
          simp [hf]
        rw [if_neg hnone] at hadded
        rw [reportsFor_snoc, hadded, List.append_nil]
        exact ⟨pre, x, post ++ [e], by simp, hfirst, hof, hrep⟩
      · rw [Bool.not_eq_true] at hf
        have hcross : urr.volumeThresholdBytes.toNat ≤ (p.usageOf urr).tally.total + size := by
          rcases hor with hor | hor
          · rw [hf] at hor; cases hor
          · exact hor
        rw [if_pos ⟨hf, hcross⟩] at hadded
        refine ⟨es, e, [], rfl, htallied.firstCrossing hf hmeasure hcross, ?_, rules, hbefore, ?_⟩
        · rw [reportsFor_snoc, hquiet hf, List.nil_append]
        · rw [reportsFor_snoc, hquiet hf, List.nil_append, hadded]

omit [InetText] in
/-- The entry of a URR after an accepted `install`. -/
theorem usageOf_installed {rules : RuleSet} (hvalid : RuleSetValid rules p.limits)
    (hinstalled : p' = { p with
      rules := some rules
      runtime := .ofStores (p.runtime.qerStore.rebuilt (rules.qers.map Qer.item))
        (p.runtime.urrStore.rebuilt (rules.urrs.map Urr.item)) })
    {urr : Urr} (hurr : urr ∈ rules.urrs) : p'.usageOf urr = p.runtime.urrStore.carried urr.item := by
  have hentry := Store.entry_rebuilt p.runtime.urrStore hvalid.urrIds.urrKeys
    (List.mem_map.mpr ⟨urr, hurr, rfl⟩)
  rw [hinstalled, usageOf]
  exact congrArg (Option.getD · default) hentry

/-- An `install` that keeps the URR keeps the invariant. -/
theorem UsageInv.install (h : UsageInv id generation es p) {rules' : RuleSet}
    {result : Except String Unit} (houtcome : InstallOutcome p rules' result p')
    (hkept : KeepsUsage id generation ⟨p, .install rules', .installed result, p'⟩) :
    UsageInv id generation (es ++ [⟨p, .install rules', .installed result, p'⟩]) p' := by
  obtain ⟨rules, hrules, urr, hurr, hid, hgen, -⟩ := h.installed
  cases houtcome with
  | rejected _ _ hsame =>
    subst hsame
    refine h.keep h.wellFormed rfl hrules hurr hid hgen fun urr' hid' => ?_
    rw [usageOf, usageOf, hid, hid']
  | accepted hvalid hresult hinstalled =>
    obtain ⟨urr', hurr', hid', hgen'⟩ := hkept rules' rfl (by rw [hresult])
    have hwf' : p'.WellFormed :=
      InstallOutcome.wellFormed (.accepted hvalid hresult hinstalled) h.wellFormed
    have hrules' : p'.rules = some rules' := by rw [hinstalled]
    refine h.keep hwf' rfl hrules' hurr' hid' hgen' fun old hold => ?_
    rw [usageOf_installed hvalid hinstalled hurr']
    -- the URR is held under its generation, so its entry is carried over
    have halign := h.wellFormed.aligned_of_rules hrules
    have hids := (h.wellFormed.valid rules hrules).urrIds
    obtain ⟨state, hstate⟩ := halign.usage hurr
    have hheld := halign.urrs.generation hids.urrKeys (List.mem_map.mpr ⟨urr, hurr, rfl⟩)
    have hcarried : p.runtime.urrStore.carried urr'.item = state := by
      refine Store.carried_of_entry ?_ ?_
      · rw [← hstate, hid, ← hid']; rfl
      · rw [show urr'.item.key = urr.item.key by rw [Urr.item, Urr.item, hid, hid'], hheld]
        exact congrArg some (hgen.trans hgen'.symm)
    rw [hcarried, usageOf, hold, ← hid, hstate, Option.getD_some]

/-- The invariant says that the counters are exact. -/
theorem UsageInv.exact (h : UsageInv id generation es p) :
    ∃ state, p.runtime.urrs[id.value]? = some state ∧ ExactUsage id generation es state := by
  obtain ⟨hwf, rules, hrules, urr, hurr, rfl, rfl, htallied, hquiet, hfired⟩ := h
  obtain ⟨state, hstate⟩ := (hwf.aligned_of_rules hrules).usage hurr
  have hof : p.usageOf urr = state := by rw [usageOf, hstate, Option.getD_some]
  rw [hof] at htallied hquiet hfired
  refine ⟨state, hstate, htallied.count_eq, htallied.total_eq, fun hnone => ?_, ?_⟩
  · have hf : state.tally.fired = false := by
      rw [← Bool.not_eq_true, htallied.fired_iff]
      rintro ⟨pre, e, post, hsplit, hcross⟩
      exact hnone pre e post hsplit hcross
    exact ⟨hquiet hf, hf⟩
  · intro pre e post hsplit hfirst
    have hf : state.tally.fired = true :=
      htallied.fired_iff.mpr ⟨pre, e, post, hsplit, hfirst.crosses⟩
    obtain ⟨pre', e', post', hsplit', hfirst', hrest⟩ := hfired hf
    obtain ⟨-, rfl⟩ := hfirst.unique hfirst' (hsplit.symm.trans hsplit')
    exact ⟨hf, hrest⟩

end Runs

/-- The rules of the test builders with a threshold one uplink packet
reaches. -/
def lowThresholdRules (version : UInt64) : RuleSet :=
  { basicRules with version, urrs := [{ id := ⟨40⟩, volumeThresholdBytes := 1000 }] }

/-- The URR reports its first packet, is installed again, and counts a
second packet. -/
def keptCalls : List PipelineCall :=
  [.install (lowThresholdRules 3), .process uplinkPacket "r" "s", .install (lowThresholdRules 4),
    .process uplinkPacket "r" "s"]

def keptRun : Option (List PipelineEvent × PacketPipeline) := run (@exec dottedText) (new {}) keptCalls

theorem keptRun_isSome : keptRun.isSome = true := by decide +kernel

end PacketPipeline

end UpfPolicy
