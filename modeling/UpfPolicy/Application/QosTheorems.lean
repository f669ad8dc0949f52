/-
UpfPolicy.Application.QosTheorems — the token buckets over whole runs.

One packet moves the bucket of an installed QER by one step of the abstract
bucket of `Support.TokenBucket` (`tokenStep`): not at all, by a refill, or
by a refill and a charge. Two results about runs follow.

  * `qer_window_bound` — what a QER lets through between two arrival times,
    after one `install`. The bound of the burst and the rate holds up to
    less than one byte, the remainder a full bucket carries.
  * `bucket_invariant_iff` — the buckets stay within their bursts in every
    state of a run exactly when no `install` of the run carries over more
    tokens than the new burst.
-/
import UpfPolicy.Application.ProcessTheorems

namespace UpfPolicy

open Support

namespace PacketPipeline

/-! ## One packet -/

/-- The arrival time and the size of a committed packet charged to a QER. -/
def qerCharge [InetText] (id : QerId) (e : PipelineEvent) : Option (Nat × Nat) :=
  (committedPacket e).bind fun (pdr, packet) =>
    if pdr.qerId = some id then
      some (packet.arrivalTimeMicros.toNat, packet.payloadBytes.toNat)
    else none

/-- How a bucket moves, and what it is charged. -/
inductive TokenStep (qer : Qer) (current next : TokenBucketState) : Option (Nat × Nat) → Prop where
  | keep (hnext : next = current) : TokenStep qer current next none
  | refill {t : Nat} (hforward : current.fill.last ≤ t)
      (hnext : next.fill = qer.bucket.refill current.fill t) : TokenStep qer current next none
  | charge {t x : Nat} (hforward : current.fill.last ≤ t)
      (henough : x ≤ qer.bucket.level current.fill t)
      (hnext : next.fill = (qer.bucket.refill current.fill t).spend x) :
      TokenStep qer current next (some (t, x))

section Step

variable {p p' : PacketPipeline} {packet : Packet} {d : PacketDecision} {rules : RuleSet}
  {winner : Pdr} {qer : Qer}

theorem tokensOf_insert_self {next : TokenBucketState}
    (hqers : p'.runtime.qers = p.runtime.qers.insert qer.id.value next) : p'.tokensOf qer = next := by
  rw [tokensOf, hqers, Std.ExtTreeMap.getElem?_insert_self, Option.getD_some]

theorem tokensOf_insert_of_ne {next : TokenBucketState} {k : UInt32} (hne : k ≠ qer.id.value)
    (hqers : p'.runtime.qers = p.runtime.qers.insert k next) :
    p'.tokensOf qer = p.tokensOf qer := by
  rw [tokensOf, hqers, getElem?_insert_of_ne _ _ hne, tokensOf]

/-- An overwritten entry is the one of the QER it was written for. -/
theorem tokensOf_insert (hids : DistinctIds Qer.id rules.qers) {cited : Qer}
    (hcited : cited ∈ rules.qers) (hqer : qer ∈ rules.qers) {next : TokenBucketState}
    (hqers : p'.runtime.qers = p.runtime.qers.insert cited.id.value next) :
    (cited = qer ∧ p'.tokensOf qer = next) ∨ (cited.id ≠ qer.id ∧ p'.tokensOf qer = p.tokensOf qer) := by
  by_cases hsame : cited.id.value = qer.id.value
  · have heq := hids.eq_of_value hcited hqer hsame
    subst heq
    exact Or.inl ⟨rfl, tokensOf_insert_self hqers⟩
  · exact Or.inr ⟨fun hid => hsame (congrArg RuleId.value hid), tokensOf_insert_of_ne hsame hqers⟩

/-- **One packet moves a bucket by one step.** -/
theorem tokenStep [InetText] (h : p.WellFormed) (hrules : p.rules = some rules)
    (hqer : qer ∈ rules.qers) (heffect : ProcessEffect p packet d p') (runId scenarioId : String) :
    TokenStep qer (p.tokensOf qer) (p'.tokensOf qer)
      (qerCharge qer.id ⟨p, .process packet runId scenarioId, .decided d, p'⟩) := by
  have hids := (h.valid rules hrules).qerIds
  cases heffect with
  | nothing hresult hruntime _ =>
    simp only [qerCharge, committedPacket, hresult, Bool.false_eq_true, if_false, Option.bind_none]
    exact .keep (by rw [tokensOf, hruntime, tokensOf])
  | refill hresult hat hcited hdenied hfailure hruntime _ =>
    obtain rfl := Option.some.inj (hrules.symm.trans hat.installed)
    simp only [qerCharge, committedPacket, hresult, Bool.false_eq_true, if_false, Option.bind_none]
    rcases tokensOf_insert hids (citedQer_mem hcited).1 hqer (congrArg RuntimeState.qers hruntime)
      with ⟨rfl, hnext⟩ | ⟨-, hnext⟩
    · have hlimited := meter_limited hdenied hfailure
      exact .refill hlimited.forward (hnext ▸ hlimited.next)
    · exact .keep hnext
  | @commit _ pdr _ hresult hat hadmits _ hruntime _ =>
    obtain rfl := Option.some.inj (hrules.symm.trans hat.installed)
    simp only [qerCharge, committedPacket, hresult, if_true, hat.winner_eq h, Option.map_some,
      Option.bind_some]
    have hqers : p'.runtime.qers = (p.committedRuntime rules packet pdr).qers :=
      congrArg RuntimeState.qers hruntime
    cases hcited : citedQer rules pdr with
    | none =>
      have huncited : pdr.qerId ≠ some qer.id := by
        intro hid
        have hfind : findQer rules qer.id = some qer :=
          (h.valid rules hrules).findQer_eq_some.mpr ⟨hqer, rfl⟩
        rw [citedQer, hid, Option.bind_some, hfind] at hcited
        cases hcited
      rw [committedRuntime, hcited] at hqers
      rw [if_neg huncited]
      exact .keep (by rw [tokensOf, hqers, tokensOf])
    | some cited =>
      obtain ⟨hmem, hid⟩ := citedQer_mem hcited
      rw [committedRuntime, hcited] at hqers
      rw [hid]
      rcases tokensOf_insert hids hmem hqer hqers with ⟨rfl, hnext⟩ | ⟨hne, hnext⟩
      · have hcharged := meter_charged (hadmits cited hcited)
        rw [if_pos rfl]
        exact .charge hcharged.forward hcharged.enough (hnext ▸ hcharged.next)
      · rw [if_neg (fun heq => hne (Option.some.inj heq))]
        exact .keep hnext

end Step

/-! ## Between two installs -/

/-- One call of `process`. -/
def processCall (call : Packet × String × String) : PipelineCall :=
  .process call.1 call.2.1 call.2.2

/-- What a list of events charges a QER. -/
def qerCharges [InetText] (id : QerId) (es : List PipelineEvent) : List (Nat × Nat) :=
  es.filterMap (qerCharge id)

/-- Along `process` calls the bucket of an installed QER is metered, with
the charges of the events; a refill alone meters nothing. -/
theorem metered_of_recorded [InetText] {p₀ p : PacketPipeline} {rules : RuleSet} {qer : Qer}
    (h₀ : p₀.WellFormed) (hrules : p₀.rules = some rules) (hqer : qer ∈ rules.qers)
    {es : List PipelineEvent} (hrun : Recorded exec p₀ es p)
    (honly : ∀ e ∈ es, ∃ call, e.input = processCall call) :
    p.WellFormed ∧ p.rules = some rules ∧
      ∃ log, qer.bucket.Metered (p₀.tokensOf qer).fill log (p.tokensOf qer).fill ∧
        ∀ a b, Bucket.spentIn a b log = Bucket.spentIn a b (qerCharges qer.id es) := by
  induction hrun with
  | nil => exact ⟨h₀, hrules, [], .nil, fun _ _ => rfl⟩
  | @snoc es s t call reply hprev hexec ih =>
    obtain ⟨hwf, hinstalled, log, hmetered, hspent⟩ :=
      ih fun e he => honly e (List.mem_append_left _ he)
    obtain ⟨⟨packet, runId, scenarioId⟩, rfl⟩ := honly ⟨s, call, reply, t⟩ (by simp)
    cases hwf.exec_outcome hexec with
    | install hcall _ _ => cases hcall
    | @process _ _ _ d hcall hreply hconfig hexit =>
      cases hcall
      subst hreply
      refine ⟨hwf.of_exit hconfig hexit, hconfig.rules.trans hinstalled, ?_⟩
      have hstep := tokenStep hwf hinstalled hqer hexit.effect runId scenarioId
      have hlog : qerCharges qer.id (es ++ [⟨s, .process packet runId scenarioId, .decided d, t⟩])
          = qerCharges qer.id es ++
            (qerCharge qer.id ⟨s, .process packet runId scenarioId, .decided d, t⟩).toList := by
        rw [qerCharges, List.filterMap_append, qerCharges]
        cases hcharge : qerCharge qer.id ⟨s, .process packet runId scenarioId, .decided d, t⟩ <;>
          simp [hcharge]
      simp only [processCall, hlog]
      generalize qerCharge qer.id ⟨s, .process packet runId scenarioId, .decided d, t⟩ = charge
        at hstep
      cases hstep with
      | keep hnext =>
        refine ⟨log, hnext ▸ hmetered, fun a b => ?_⟩
        rw [Option.toList_none, List.append_nil]
        exact hspent a b
      | @refill now hforward hnext =>
        refine ⟨log ++ [(now, 0)], hnext ▸ hmetered.snoc hforward (Nat.zero_le _), fun a b => ?_⟩
        rw [Option.toList_none, List.append_nil, Bucket.spentIn_snoc, ite_self, Nat.add_zero]
        exact hspent a b
      | @charge now x hforward henough hnext =>
        refine ⟨log ++ [(now, x)], hnext ▸ hmetered.snoc hforward henough, fun a b => ?_⟩
        rw [Option.toList_some, Bucket.spentIn_snoc, Bucket.spentIn_snoc, hspent a b]

/-- Every QER of the first ruleset starts with a full bucket. -/
theorem tokensOf_first_install {limits : CapacityLimits} {rules : RuleSet} {qer : Qer}
    (hvalid : RuleSetValid rules limits) (hqer : qer ∈ rules.qers)
    {p : PacketPipeline} (houtcome : InstallOutcome (new limits) rules (.ok ()) p) :
    p.tokensOf qer = freshTokens qer := by
  cases houtcome with
  | rejected _ hresult _ => exact absurd rfl hresult
  | accepted _ _ hinstalled =>
    have hentry := Store.entry_rebuilt (new limits).runtime.qerStore hvalid.qerIds.qerKeys
      (List.mem_map.mpr ⟨qer, hqer, rfl⟩)
    have hfresh : (new limits).runtime.qerStore.carried qer.item = freshTokens qer :=
      Store.holds_empty.carried_of_not_mem (by simp) (by simp)
    rw [hfresh] at hentry
    rw [hinstalled, tokensOf]
    exact (congrArg (Option.getD · default) hentry).trans rfl

theorem sound_freshTokens (qer : Qer) : qer.bucket.Sound (freshTokens qer).fill :=
  ⟨Nat.le_refl _, qer.bucket.unit_pos⟩

/-- **Window bound.** After the first `install`, what a QER lets through
between two arrival times is bounded by its burst and its rate, up to less
than one byte. -/
theorem qer_window_bound [InetText] {limits : CapacityLimits} {rules : RuleSet}
    (haccepted : ((new limits).install rules).1 = .ok ())
    (calls : List (Packet × String × String)) :
    ∃ es p, run exec ((new limits).install rules).2 (calls.map processCall) = some (es, p) ∧
      ∀ qer ∈ rules.qers, ∀ a b : Nat,
        Bucket.spentIn a b (qerCharges qer.id es) * 8000000
          ≤ qer.burstBytes.toNat * 8000000 + qer.rateBitsPerSecond.toNat * (b - a) + 7999999 := by
  have hnew := wellFormed_new limits
  have houtcome := hnew.install_outcome rules
  rw [haccepted] at houtcome
  have hwf := houtcome.wellFormed hnew
  obtain ⟨es, p, hrun⟩ := hwf.run_total (calls.map processCall)
  refine ⟨es, p, hrun, fun qer hqer a b => ?_⟩
  have hinstalled : ((new limits).install rules).2.rules = some rules := by
    cases houtcome with
    | rejected _ hresult _ => exact absurd rfl hresult
    | accepted _ _ hinstalled => rw [hinstalled]
  have hvalid := hwf.valid rules hinstalled
  have honly : ∀ e ∈ es, ∃ call, e.input = processCall call := by
    intro e he
    have hmem : e.input ∈ es.map (·.input) := List.mem_map.mpr ⟨e, he, rfl⟩
    rw [map_input_of_run hrun] at hmem
    obtain ⟨call, -, hcall⟩ := List.mem_map.mp hmem
    exact ⟨call, hcall.symm⟩
  obtain ⟨-, -, log, hmetered, hspent⟩ :=
    metered_of_recorded hwf hinstalled hqer (recorded_of_run hrun) honly
  have hlimits : ((new limits).install rules).2.limits = limits := houtcome.limits
  rw [hlimits] at hvalid
  rw [tokensOf_first_install hvalid hqer houtcome] at hmetered
  rw [← hspent a b]
  exact hmetered.window_bound (sound_freshTokens qer) a b

/-- A bucket of one byte, refilled by half a byte each microsecond. -/
def halfByteRules : RuleSet :=
  { basicRules with qers := [{ id := ⟨30⟩, rateBitsPerSecond := 4000000, burstBytes := 1 }] }

/-- One byte at each of the first four microseconds. -/
def halfByteRun : Option (List PipelineEvent × PacketPipeline) :=
  run (@exec dottedText) ((new {}).install halfByteRules).2
    (([1, 2, 3, 4].map fun t =>
      ({ uplinkPacket with payloadBytes := 1, arrivalTimeMicros := t }, "r", "s")).map processCall)

theorem halfByteRun_isSome : halfByteRun.isSome = true := by decide +kernel

/-- Three of the four bytes are let through: the third packet comes too early. -/
theorem qer_window_bound_halfByte :
    @qerCharges dottedText ⟨30⟩ (halfByteRun.get halfByteRun_isSome).1 = [(1, 1), (2, 1), (4, 1)] ∧
      ∀ qer ∈ halfByteRules.qers, ∀ a b : Nat,
        Bucket.spentIn a b (@qerCharges dottedText qer.id (halfByteRun.get halfByteRun_isSome).1)
            * 8000000
          ≤ qer.burstBytes.toNat * 8000000 + qer.rateBitsPerSecond.toNat * (b - a) + 7999999 := by
  obtain ⟨es, p, hrun, hbound⟩ := @qer_window_bound dottedText {} halfByteRules (by decide)
    ([1, 2, 3, 4].map fun t =>
      ({ uplinkPacket with payloadBytes := 1, arrivalTimeMicros := t }, "r", "s"))
  have hsame : halfByteRun.get halfByteRun_isSome = (es, p) := Option.get_of_eq_some _ hrun
  refine ⟨by decide +kernel, ?_⟩
  rw [hsame]
  exact hbound

/-- The full bucket keeps half a byte as its remainder, so two bytes leave
where the burst and the rate allow one and a half. -/
theorem qer_window_exceeded :
    ¬ ∀ (limits : CapacityLimits) (rules : RuleSet) (calls : List (Packet × String × String))
        (es : List PipelineEvent) (p : PacketPipeline) (qer : Qer) (a b : Nat),
      ((new limits).install rules).1 = .ok () →
      run (@exec dottedText) ((new limits).install rules).2 (calls.map processCall) = some (es, p) →
      qer ∈ rules.qers → a ≤ b →
      Bucket.spentIn a b (@qerCharges dottedText qer.id es) * 8000000
        ≤ qer.burstBytes.toNat * 8000000 + qer.rateBitsPerSecond.toNat * (b - a) := by
  intro h
  have hbound := h {} halfByteRules _ (halfByteRun.get halfByteRun_isSome).1
    (halfByteRun.get halfByteRun_isSome).2 _ 1 2 (by decide)
    (Option.some_get halfByteRun_isSome).symm (List.mem_singleton.mpr rfl) (by decide)
  exact absurd hbound (by decide +kernel)

/-! ## Across installs -/

/-- Every bucket of the installed ruleset is within its burst, and its
remainder is below one byte. -/
def BucketsBounded (p : PacketPipeline) : Prop :=
  ∀ rules, p.rules = some rules → ∀ qer ∈ rules.qers, ∃ state,
    p.runtime.qers[qer.id.value]? = some state ∧ state.tokensBytes.toNat ≤ qer.burstBytes.toNat ∧
      state.remainderBitMicros.toNat < 8000000

/-- A QER without a burst admits no bytes. -/
def ZeroBurstDenies [InetText] (e : PipelineEvent) : Prop :=
  ∀ packet runId scenarioId d rules winner qer, e.input = .process packet runId scenarioId →
    e.output = .decided d → e.before.rules = some rules → e.before.winner packet = some winner →
    citedQer rules winner = some qer → qer.burstBytes = 0 → packet.payloadBytes ≠ 0 →
    d.qer.allowed = false

/-- An `install` of these rules carries no bucket over its new burst. -/
def CarriesWithinBurst (p : PacketPipeline) (rules : RuleSet) : Prop :=
  ∀ qer ∈ rules.qers, ∀ state, p.runtime.qers[qer.id.value]? = some state →
    p.runtime.qerGenerations[qer.id.value]? = some qer.generation →
    state.tokensBytes.toNat ≤ qer.burstBytes.toNat

section Bounded

variable {p p' : PacketPipeline} {call : PipelineCall} {reply : PipelineReply} {rules : RuleSet}

theorem tokensOf_of_entry {qer : Qer} {state : TokenBucketState}
    (hstate : p.runtime.qers[qer.id.value]? = some state) : p.tokensOf qer = state := by
  rw [tokensOf, hstate, Option.getD_some]

theorem BucketsBounded.sound (h : p.BucketsBounded) (hrules : p.rules = some rules) {qer : Qer}
    (hqer : qer ∈ rules.qers) : qer.bucket.Sound (p.tokensOf qer).fill := by
  obtain ⟨state, hstate, htokens, hrem⟩ := h rules hrules qer hqer
  rw [tokensOf_of_entry hstate]
  exact ⟨htokens, hrem⟩

/-- A step of a bucket keeps it within its burst. -/
theorem TokenStep.sound {qer : Qer} {current next : TokenBucketState} {charge : Option (Nat × Nat)}
    (hstep : TokenStep qer current next charge) (h : qer.bucket.Sound current.fill) :
    qer.bucket.Sound next.fill := by
  cases hstep with
  | keep hnext => rw [hnext]; exact h
  | refill _ hnext => rw [hnext]; exact qer.bucket.sound_refill h.tokens_le _
  | charge _ _ hnext => rw [hnext]; exact (qer.bucket.sound_refill h.tokens_le _).spend _

/-- A held entry belongs to a rule of the installed ruleset. -/
theorem WellFormed.rule_of_entry (h : p.WellFormed) {k : UInt32} {state : TokenBucketState}
    (hstate : p.runtime.qers[k]? = some state) :
    ∃ rules, p.rules = some rules ∧ ∃ qer ∈ rules.qers, qer.id.value = k := by
  have hmem : k ∈ p.runtime.qerStore.entries :=
    Std.ExtTreeMap.mem_iff_isSome_getElem?.mpr (by rw [RuntimeState.qerStore, hstate]; rfl)
  have hkey := (h.aligned.qers.keys k).mp hmem
  cases hrules : p.rules with
  | none => simp [heldRules, hrules] at hkey
  | some rules =>
    rw [heldRules, hrules, Option.getD_some, List.map_map] at hkey
    obtain ⟨qer, hqer, hid⟩ := List.mem_map.mp hkey
    exact ⟨rules, rfl, qer, hqer, hid⟩

/-- An `install` that carries no bucket over its burst keeps the bound. -/
theorem BucketsBounded.install {result : Except String Unit} (hwf : p.WellFormed)
    (h : p.BucketsBounded) (houtcome : InstallOutcome p rules result p')
    (hcarries : result = .ok () → p.CarriesWithinBurst rules) : p'.BucketsBounded := by
  cases houtcome with
  | rejected _ _ hkept => rw [hkept]; exact h
  | accepted hvalid hresult hinstalled =>
    rw [hinstalled]
    intro rules' hrules' qer hqer
    cases hrules'
    refine ⟨_, Store.entry_rebuilt p.runtime.qerStore hvalid.qerIds.qerKeys
      (List.mem_map.mpr ⟨qer, hqer, rfl⟩), ?_⟩
    rcases p.runtime.qerStore.carried_cases qer.item with ⟨hentry, hgen⟩ | hfresh
    · refine ⟨hcarries hresult qer hqer _ hentry hgen, ?_⟩
      -- the remainder was below one byte for the QER that held the entry before
      obtain ⟨old, hold, qer₀, hqer₀, hid⟩ := hwf.rule_of_entry hentry
      obtain ⟨state, hstate, -, hrem⟩ := h old hold qer₀ hqer₀
      rw [hid] at hstate
      rw [Option.some.inj (hentry.symm.trans hstate)]
      exact hrem
    · rw [hfresh]
      exact ⟨(sound_freshTokens qer).tokens_le, (sound_freshTokens qer).remainder_lt⟩

/-- A packet keeps the bound. -/
theorem BucketsBounded.process [InetText] {packet : Packet} {d : PacketDecision}
    (hwf : p.WellFormed) (h : p.BucketsBounded) (hconfig : SameConfig p p')
    (hexit : ProcessExit p packet d p') : p'.BucketsBounded := by
  intro rules hrules qer hqer
  rw [hconfig.rules] at hrules
  have hwf' := hwf.of_exit hconfig hexit
  obtain ⟨state, hstate⟩ := (hwf'.aligned_of_rules (hconfig.rules.trans hrules)).tokens hqer
  have hsound := (tokenStep hwf hrules hqer hexit.effect "" "").sound (h.sound hrules hqer)
  rw [tokensOf_of_entry hstate] at hsound
  exact ⟨state, hstate, hsound.tokens_le, hsound.remainder_lt⟩

/-- Within the bound a QER without a burst admits no bytes. -/
theorem BucketsBounded.denies [InetText] {packet : Packet} {d : PacketDecision} {winner : Pdr}
    {qer : Qer} (hwf : p.WellFormed) (h : p.BucketsBounded) (hexit : ProcessExit p packet d p')
    (hrules : p.rules = some rules) (hwinner : p.winner packet = some winner)
    (hcited : citedQer rules winner = some qer) (hburst : qer.burstBytes = 0)
    (hpayload : packet.payloadBytes ≠ 0) : d.qer.allowed = false := by
  have hsame : ∀ {rules' pdr far}, Attempt p packet rules' pdr far →
      rules' = rules ∧ pdr = winner := by
    intro rules' pdr far hat
    exact ⟨Option.some.inj (hat.installed.symm.trans hrules),
      Option.some.inj ((hat.winner_eq hwf).symm.trans hwinner)⟩
  -- the level of a bucket without a burst is zero
  have hdenied : (p.meter packet qer).decision.allowed = false := by
    rw [← Bool.not_eq_true]
    intro hallowed
    have henough := (meter_charged hallowed).enough
    have hlevel := qer.bucket.level_le_capacity
      (h.sound hrules (citedQer_mem hcited).1).tokens_le packet.arrivalTimeMicros.toNat
    have hzero : qer.bucket.capacity = 0 := by simp [Qer.bucket, hburst]
    refine hpayload (UInt32.toNat_inj.mp ?_)
    rw [UInt32.toNat_zero]
    omega
  have hreport : (p.qerReport rules packet winner).allowed = false := by
    rw [qerReport, hcited]; exact hdenied
  cases hexit with
  | rejected _ _ hqer _ _ => rw [hqer]
  | denied _ _ _ hdenied' _ _ hqer _ _ => rw [hqer]; exact hdenied'
  | limited _ _ _ hdenied' _ _ hqer _ _ _ _ _ => rw [hqer]; exact hdenied'
  | overflow hat _ _ _ _ _ hqer _ _ => obtain ⟨rfl, rfl⟩ := hsame hat; rw [hqer]; exact hreport
  | reportsFull hat _ _ _ _ _ _ _ hqer _ _ =>
    obtain ⟨rfl, rfl⟩ := hsame hat; rw [hqer]; exact hreport
  | sinkFull hat _ _ _ _ _ _ hqer _ _ => obtain ⟨rfl, rfl⟩ := hsame hat; rw [hqer]; exact hreport
  | dropped hat _ _ _ _ _ hqer _ _ _ _ _ => obtain ⟨rfl, rfl⟩ := hsame hat; rw [hqer]; exact hreport
  | forwarded hat _ _ _ _ _ _ hqer _ _ _ _ _ =>
    obtain ⟨rfl, rfl⟩ := hsame hat; rw [hqer]; exact hreport

end Bounded

/-- What the bucket invariant asks of one event. -/
structure BucketEvent [InetText] (e : PipelineEvent) : Prop where
  bounded : e.after.BucketsBounded
  denies : ZeroBurstDenies e

/-- The condition on an `install` of a run. -/
def InstallWithinBurst (e : PipelineEvent) : Prop :=
  ∀ rules, e.input = .install rules → e.output = .installed (.ok ()) →
    e.before.CarriesWithinBurst rules

/-- An accepted `install` that keeps the bound carried nothing over it. -/
theorem carries_of_bounded {p p' : PacketPipeline} {rules : RuleSet}
    (houtcome : InstallOutcome p rules (.ok ()) p') (hbounded : p'.BucketsBounded) :
    p.CarriesWithinBurst rules := by
  cases houtcome with
  | rejected _ hresult _ => exact absurd rfl hresult
  | accepted hvalid _ hinstalled =>
    rw [hinstalled] at hbounded
    intro qer hqer state hstate hgen
    obtain ⟨after, hafter, htokens, -⟩ := hbounded rules rfl qer hqer
    have hcarried : p.runtime.qerStore.carried qer.item = state :=
      Store.carried_of_entry hstate hgen
    have hentry := Store.entry_rebuilt p.runtime.qerStore hvalid.qerIds.qerKeys
      (List.mem_map.mpr ⟨qer, hqer, rfl⟩)
    rw [hcarried] at hentry
    rw [Option.some.inj (hentry.symm.trans hafter)]
    exact htokens

/-- Along a run the buckets are bounded for as long as the condition holds. -/
theorem bounded_of_recorded [InetText] {limits : CapacityLimits} {p : PacketPipeline}
    {es : List PipelineEvent} (hrun : Recorded exec (new limits) es p)
    (hinstalls : ∀ e ∈ es, InstallWithinBurst e) :
    p.BucketsBounded ∧ ∀ e ∈ es, BucketEvent e := by
  induction hrun with
  | nil => exact ⟨fun _ h => (by cases h), fun _ h => (by cases h)⟩
  | @snoc es s t call reply hprev hexec ih =>
    obtain ⟨hbounded, hevents⟩ := ih fun e he => hinstalls e (List.mem_append_left _ he)
    have hwf := wellFormed_of_recorded hprev
    have hlast := hinstalls ⟨s, call, reply, t⟩ (by simp)
    have hevent : BucketEvent ⟨s, call, reply, t⟩ := by
      cases hwf.exec_outcome hexec with
      | install hcall hreply houtcome =>
        subst hcall hreply
        refine ⟨hbounded.install hwf houtcome fun hok => ?_, ?_⟩
        · exact hlast _ rfl (by rw [hok])
        · intro _ _ _ _ _ _ _ hinput
          cases hinput
      | process hcall hreply hconfig hexit =>
        subst hcall hreply
        refine ⟨hbounded.process hwf hconfig hexit, ?_⟩
        intro _ _ _ _ _ _ _ hinput houtput hrules hwinner hcited hburst hpayload
        cases hinput
        cases houtput
        exact hbounded.denies hwf hexit hrules hwinner hcited hburst hpayload
    exact ⟨hevent.bounded, forall_mem_snoc hevents hevent⟩

/-- **Bucket invariant.** In every run from a new pipeline: every state is
within the bursts, and a QER without a burst never admits a byte, exactly
when no accepted `install` carries a bucket over its new burst. -/
theorem bucket_invariant_iff [InetText] (limits : CapacityLimits) (calls : List PipelineCall) :
    ∃ es p, run exec (new limits) calls = some (es, p) ∧
      ((∀ e ∈ es, BucketEvent e) ↔ ∀ e ∈ es, InstallWithinBurst e) := by
  obtain ⟨es, p, hrun⟩ := (wellFormed_new limits).run_total calls
  have hrecorded := recorded_of_run hrun
  refine ⟨es, p, hrun, fun hevents e he rules hinput houtput => ?_, fun hinstalls =>
    (bounded_of_recorded hrecorded hinstalls).2⟩
  obtain ⟨hwf, hexec⟩ := hrecorded.event (wellFormed_new limits)
    (fun _ _ _ _ hs hexec => hs.exec hexec) he
  rw [hinput, houtput] at hexec
  cases hwf.exec_outcome hexec with
  | install hcall hreply houtcome =>
    cases hcall
    cases hreply
    exact carries_of_bounded houtcome (hevents e he).bounded
  | process hcall _ _ _ => cases hcall

/-- The rules of the test builders without a burst, same generation. -/
def zeroBurstRules : RuleSet :=
  { basicRules with
    version := 4
    qers := [{ id := ⟨30⟩, rateBitsPerSecond := 10000000, burstBytes := 0 }] }

def zeroBurstRun : Option (List PipelineEvent × PacketPipeline) :=
  run (@exec dottedText) (new {}) [.install basicRules, .install zeroBurstRules]

theorem zeroBurstRun_isSome : zeroBurstRun.isSome = true := by decide +kernel

/-- The second `install` of that run. -/
def zeroBurstInstall : PipelineEvent :=
  (zeroBurstRun.get zeroBurstRun_isSome).1.get ⟨1, by decide +kernel⟩

/-- The second `install` keeps the 20000 tokens of the first under a burst
of zero. -/
theorem bucket_over_burst :
    ¬ ∀ (limits : CapacityLimits) (calls : List PipelineCall) (es : List PipelineEvent)
        (p : PacketPipeline), run (@exec dottedText) (new limits) calls = some (es, p) →
      ∀ e ∈ es, @BucketEvent dottedText e := by
  intro h
  have hbounded : zeroBurstInstall.after.BucketsBounded :=
    @BucketEvent.bounded dottedText _
      (h {} _ (zeroBurstRun.get zeroBurstRun_isSome).1 (zeroBurstRun.get zeroBurstRun_isSome).2
        (Option.some_get zeroBurstRun_isSome).symm _ (List.get_mem _ _))
  have hrules : zeroBurstInstall.after.rules.map (·.qers) = some zeroBurstRules.qers := by
    decide +kernel
  obtain ⟨rules, hinstalled, hqers⟩ := Option.map_eq_some_iff.mp hrules
  obtain ⟨state, hstate, htokens, -⟩ :=
    hbounded rules hinstalled { id := ⟨30⟩, rateBitsPerSecond := 10000000, burstBytes := 0 }
      (by rw [hqers]; exact List.mem_singleton.mpr rfl)
  have hheld : zeroBurstInstall.after.runtime.qers[(30 : UInt32)]?.map (·.tokensBytes)
      = some 20000 := by decide +kernel
  rw [hstate, Option.map_some] at hheld
  rw [Option.some.inj hheld] at htokens
  exact absurd htokens (by decide)

end PacketPipeline

end UpfPolicy
