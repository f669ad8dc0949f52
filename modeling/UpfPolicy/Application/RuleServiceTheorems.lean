/-
UpfPolicy.Application.RuleServiceTheorems — what the calls on a
`RuleService` do, and which runtime state an `update` keeps.

`ServiceOutcome` lists everything a call can do. `Holding` is the invariant
behind it: the runtime state is aligned with the latest accepted ruleset,
which is the active one unless it was removed. `latestAccepted` recovers
that ruleset from the calls of a run.

`state_kept_by_generation` is the result about runtime state: it goes by
rule ID and generation.
-/
import UpfPolicy.Application.RuleService
import UpfPolicy.Application.InstallTheorems
import UpfPolicy.Support.Runs

namespace UpfPolicy

open Support

namespace RuleService

/-! ## The loop of `update` -/

/-- One turn on a store that has an entry under every generation. -/
theorem migrateRule_eq {σ : Type} [Inhabited σ] (s m : Store UInt32 UInt32 σ)
    (i : Item UInt32 UInt32 σ)
    (hpaired : ∀ generation, s.generations[i.key]? = some generation →
      ∃ entry, s.entries[i.key]? = some entry) :
    migrateRule (s, m) i =
      (s, { entries := m.entries.insert i.key (s.carried i)
            generations := m.generations.insert i.key i.generation }) := by
  simp only [migrateRule, Store.carried]
  cases hg : s.generations[i.key]? with
  | none => cases s.entries[i.key]? <;> simp
  | some generation =>
    obtain ⟨entry, hentry⟩ := hpaired generation hg
    by_cases hsame : generation = i.generation
    · simp [hsame, hentry, subscript_of_getElem? hentry]
    · simp [hsame, hentry]

/-- The loop: the old store stays, the new one gets an entry for each item. -/
theorem foldl_migrateRule {σ : Type} [Inhabited σ] (items : List (Item UInt32 UInt32 σ))
    (s m : Store UInt32 UInt32 σ)
    (hpaired : ∀ (k generation : UInt32), s.generations[k]? = some generation →
      ∃ entry, s.entries[k]? = some entry) :
    items.foldl migrateRule (s, m) =
      (s, { entries := items.foldl (fun t i => t.insert i.key (s.carried i)) m.entries
            generations := items.foldl (fun t i => t.insert i.key i.generation) m.generations }) := by
  induction items generalizing m with
  | nil => rfl
  | cons i rest ih => rw [List.foldl_cons, migrateRule_eq s m i (hpaired i.key), ih]; rfl

/-! ## What a service holds -/

/-- The runtime state of the service is that of the rules `held`. -/
structure Holding (s : RuleService) (held : RuleSet) : Prop where
  qerIds : DistinctIds Qer.id held.qers
  urrIds : DistinctIds Urr.id held.urrs
  aligned : Aligned held s.runtime
  active : ∀ rules, s.active = some rules → rules = held
  intended : s.intended = s.active

theorem holding_new (limits : CapacityLimits) : (new limits).Holding {} where
  qerIds := ⟨by simp, by simp⟩
  urrIds := ⟨by simp, by simp⟩
  aligned := ⟨Store.holds_empty, Store.holds_empty⟩
  active := fun _ h => by cases h
  intended := rfl

/-- The two stores rebuilt for a ruleset. -/
def rebuiltRuntime (runtime : RuntimeState) (rules : RuleSet) : RuntimeState :=
  .ofStores (runtime.qerStore.rebuilt (rules.qers.map Qer.item))
    (runtime.urrStore.rebuilt (rules.urrs.map Urr.item))

/-- The loops of `update`, on a paired state. -/
theorem migrate_of_paired {runtime : RuntimeState} (h : runtime.Paired) (rules : RuleSet) :
    migrate runtime rules = rebuiltRuntime runtime rules := by
  rw [migrate, foldl_migrateRule _ _ _ (fun _ _ => h.qerStore.entry_of_generation),
    foldl_migrateRule _ _ _ (fun _ _ => h.urrStore.entry_of_generation)]
  rfl

/-! ## Outcomes -/

/-- The tests `update` makes. -/
structure Admits (s : RuleService) (updateId : String) (rules : RuleSet) : Prop where
  updateId : updateId.isEmpty = false
  newer : ∀ active, s.active = some active → active.version < rules.version
  valid : RuleSetValid rules s.limits

/-- **Everything a call can do.** -/
inductive ServiceOutcome (s : RuleService) : ServiceCall → ServiceReply → RuleService → Prop where
  | updated {updateId : String} {rules : RuleSet} (hadmits : s.Admits updateId rules) :
      ServiceOutcome s (.update updateId rules) (.returned (.ok ()))
        { s with
          runtime := rebuiltRuntime s.runtime rules
          intended := some rules
          active := some rules
          latestUpdateId := updateId }
  | updateRejected {updateId : String} {rules : RuleSet} {e : String}
      (hrejects : ¬ s.Admits updateId rules) :
      ServiceOutcome s (.update updateId rules) (.returned (.error e)) s
  | removed {updateId : String} {version : UInt64} {active : RuleSet}
      (hid : updateId.isEmpty = false) (hactive : s.active = some active)
      (hnewer : active.version < version) :
      ServiceOutcome s (.remove updateId version) (.returned (.ok ()))
        { s with intended := none, active := none, latestUpdateId := updateId }
  | removeRejected {updateId : String} {version : UInt64} :
      ServiceOutcome s (.remove updateId version) (.returned (.error "invalid delete")) s
  | applied {intended : RuleSet} (hintended : s.intended = some intended) :
      ServiceOutcome s (.markApplied s.latestUpdateId intended.version) .done
        { s with appliedVersion := intended.version }
  | stale {updateId : String} {version : UInt64} :
      ServiceOutcome s (.markApplied updateId version) .done s
  | wroteTokens {id : UInt32} {state : TokenBucketState} (hheld : id ∈ s.runtime.qers) :
      ServiceOutcome s (.writeTokens id state) .done
        { s with runtime := { s.runtime with qers := s.runtime.qers.insert id state } }
  | wroteUsage {id : UInt32} {state : UsageCounterState} (hheld : id ∈ s.runtime.urrs) :
      ServiceOutcome s (.writeUsage id state) .done
        { s with runtime := { s.runtime with urrs := s.runtime.urrs.insert id state } }

section Outcome

variable {s s' : RuleService} {held : RuleSet}

theorem Holding.update_outcome (h : s.Holding held) (updateId : String) (rules : RuleSet) :
    ServiceOutcome s (.update updateId rules) (.returned (s.update updateId rules).1)
      (s.update updateId rules).2 := by
  unfold update
  by_cases hid : updateId.isEmpty = true
  · rw [if_pos hid]
    refine .updateRejected fun hadmits => ?_
    rw [hadmits.updateId] at hid
    cases hid
  · rw [if_neg hid]
    by_cases hold : s.active.any (fun active => decide (rules.version ≤ active.version)) = true
    · rw [if_pos hold]
      refine .updateRejected fun hadmits => ?_
      obtain ⟨active, hactive, hle⟩ := (Option.any_eq_true _ _).mp hold
      exact absurd (hadmits.newer active hactive) (UInt64.not_lt.mpr (of_decide_eq_true hle))
    · rw [if_neg hold]
      cases hresult : validateRuleSet rules s.limits with
      | error e =>
        refine .updateRejected fun hadmits => ?_
        rw [(validateRuleSet_ok_iff rules s.limits).mpr hadmits.valid] at hresult
        cases hresult
      | ok u =>
        dsimp only
        rw [migrate_of_paired (h.aligned.paired h.qerIds h.urrIds) rules]
        refine .updated ⟨by simpa using hid, ?_, (validateRuleSet_ok_iff rules s.limits).mp hresult⟩
        intro active hactive
        rw [hactive] at hold
        simpa using hold

theorem remove_outcome (s : RuleService) (updateId : String) (version : UInt64) :
    ServiceOutcome s (.remove updateId version) (.returned (s.remove updateId version).1)
      (s.remove updateId version).2 := by
  unfold remove
  cases hactive : s.active with
  | none => exact .removeRejected
  | some active =>
    dsimp only
    by_cases hbad : (updateId.isEmpty || decide (version ≤ active.version)) = true
    · rw [if_pos hbad]
      exact .removeRejected
    · rw [if_neg hbad]
      rw [Bool.not_eq_true, Bool.or_eq_false_iff, decide_eq_false_iff_not] at hbad
      exact .removed hbad.1 hactive (UInt64.not_le.mp hbad.2)

theorem markApplied_outcome (s : RuleService) (updateId : String) (version : UInt64) :
    ServiceOutcome s (.markApplied updateId version) .done (s.markApplied updateId version) := by
  unfold markApplied
  by_cases hmatch : s.intended.any (fun intended => updateId == s.latestUpdateId &&
      version == intended.version) = true
  · rw [if_pos hmatch]
    obtain ⟨intended, hintended, hsame⟩ := (Option.any_eq_true _ _).mp hmatch
    rw [Bool.and_eq_true, beq_iff_eq, beq_iff_eq] at hsame
    rw [hsame.1, hsame.2]
    exact .applied hintended
  · rw [if_neg hmatch]
    exact .stale

theorem Holding.exec_outcome (h : s.Holding held) {call : ServiceCall} {reply : ServiceReply}
    (hexec : s.exec call = some (reply, s')) : ServiceOutcome s call reply s' := by
  cases call with
  | update updateId rules => cases hexec; exact h.update_outcome updateId rules
  | remove updateId version => cases hexec; exact remove_outcome s updateId version
  | markApplied updateId version => cases hexec; exact markApplied_outcome s updateId version
  | writeTokens id state =>
    rw [exec] at hexec
    split at hexec
    · cases hexec
      exact .wroteTokens (Std.ExtTreeMap.contains_iff_mem.mp ‹_›)
    · cases hexec
  | writeUsage id state =>
    rw [exec] at hexec
    split at hexec
    · cases hexec
      exact .wroteUsage (Std.ExtTreeMap.contains_iff_mem.mp ‹_›)
    · cases hexec

/-- An accepted update was admitted and installs its ruleset. -/
theorem ServiceOutcome.of_accepted {updateId : String} {rules : RuleSet}
    (h : ServiceOutcome s (.update updateId rules) (.returned (.ok ())) s') :
    s.Admits updateId rules ∧
      s' = { s with
        runtime := rebuiltRuntime s.runtime rules
        intended := some rules
        active := some rules
        latestUpdateId := updateId } := by
  cases h with
  | updated hadmits => exact ⟨hadmits, rfl⟩

/-- An admitted update is accepted. -/
theorem ServiceOutcome.accepts {updateId : String} {rules : RuleSet} {reply : ServiceReply}
    (h : ServiceOutcome s (.update updateId rules) reply s') (hadmits : s.Admits updateId rules) :
    reply = .returned (.ok ()) := by
  cases h with
  | updated => rfl
  | updateRejected hrejects => exact absurd hadmits hrejects

end Outcome

/-! ## Runs -/

/-- A call on a service, as recorded. -/
abbrev ServiceEvent := Event RuleService ServiceCall ServiceReply

/-- The rules held after an event. -/
def heldAfter (held : RuleSet) (e : ServiceEvent) : RuleSet :=
  match e.input, e.output with
  | .update _ rules, .returned (.ok ()) => rules
  | _, _ => held

/-- The ruleset of the latest accepted update; without rules if there was
none. -/
def latestAccepted (es : List ServiceEvent) : RuleSet := es.foldl heldAfter {}

section Runs

variable {s s' : RuleService} {held : RuleSet} {call : ServiceCall} {reply : ServiceReply}

/-- **Each call keeps the invariant.** -/
theorem ServiceOutcome.holding (houtcome : ServiceOutcome s call reply s') (h : s.Holding held) :
    s'.Holding (heldAfter held ⟨s, call, reply, s'⟩) := by
  cases houtcome with
  | updated hadmits =>
    have hvalid := hadmits.valid
    refine ⟨hvalid.qerIds, hvalid.urrIds, ?_, ?_, rfl⟩
    · exact ⟨Store.holds_rebuilt _ hvalid.qerIds.qerKeys, Store.holds_rebuilt _ hvalid.urrIds.urrKeys⟩
    · intro rules hrules
      cases hrules
      rfl
  | removed => exact { h with active := (fun _ hrules => by cases hrules), intended := rfl }
  | applied => exact { h with }
  | wroteTokens hheld =>
    exact { h with aligned := ⟨h.aligned.qers.insert hheld _, h.aligned.urrs⟩ }
  | wroteUsage hheld =>
    exact { h with aligned := ⟨h.aligned.qers, h.aligned.urrs.insert hheld _⟩ }
  | updateRejected => exact h
  | removeRejected => exact h
  | stale => exact h

theorem latestAccepted_snoc (es : List ServiceEvent) (e : ServiceEvent) :
    latestAccepted (es ++ [e]) = heldAfter (latestAccepted es) e := by
  rw [latestAccepted, List.foldl_append]
  rfl

/-- **A service holds the rules of its latest accepted update.** -/
theorem holding_of_recorded {limits : CapacityLimits} {es : List ServiceEvent}
    (h : Recorded exec (new limits) es s) : s.Holding (latestAccepted es) := by
  induction h with
  | nil => exact holding_new limits
  | snoc _ hexec ih =>
    rw [latestAccepted_snoc]
    exact (ih.exec_outcome hexec).holding ih

/-- Every event of a run has one of the outcomes. -/
theorem outcome_of_split {limits : CapacityLimits} {es pre post : List ServiceEvent}
    {e : ServiceEvent} (h : Recorded exec (new limits) es s) (hsplit : es = pre ++ e :: post) :
    e.before.Holding (latestAccepted pre) ∧ ServiceOutcome e.before e.input e.output e.after := by
  obtain ⟨t, hpre, hpost⟩ := h.split hsplit
  obtain ⟨rfl, hexec, -⟩ := hpost.uncons
  have hholding := holding_of_recorded hpre
  exact ⟨hholding, hholding.exec_outcome hexec⟩

/-! ## Which state an update keeps -/

/-- What an accepted update makes of the state of every rule. -/
def StateByGeneration (latest : RuleSet) (e : ServiceEvent) (rules : RuleSet) : Prop :=
  (∀ qer ∈ rules.qers, Store.Settled e.before.runtime.qerStore e.after.runtime.qerStore qer.item
      (latest.qers.map Qer.item) ((e.before.active.getD {}).qers.map Qer.item)) ∧
  ∀ urr ∈ rules.urrs, Store.Settled e.before.runtime.urrStore e.after.runtime.urrStore urr.item
      (latest.urrs.map Urr.item) ((e.before.active.getD {}).urrs.map Urr.item)

/-- The active rules are among the rules held. -/
theorem Holding.active_subset (h : s.Holding held) :
    (s.active.getD {}).qers ⊆ held.qers ∧ (s.active.getD {}).urrs ⊆ held.urrs := by
  cases hactive : s.active with
  | none => exact ⟨List.nil_subset _, List.nil_subset _⟩
  | some rules =>
    rw [Option.getD_some, h.active rules hactive]
    exact ⟨List.Subset.refl _, List.Subset.refl _⟩

/-- **Runtime state is kept by rule ID and generation.** An accepted update
starts every rule afresh that the latest accepted ruleset does not have
under the same ID and generation, and keeps the state of every rule that
the active ruleset has so. -/
theorem state_kept_by_generation {limits : CapacityLimits} {calls : List ServiceCall}
    {es pre post : List ServiceEvent} (hrun : run exec (new limits) calls = some (es, s))
    {e : ServiceEvent} (hsplit : es = pre ++ e :: post) {updateId : String} {rules : RuleSet}
    (hcall : e.input = .update updateId rules) (hok : e.output = .returned (.ok ())) :
    StateByGeneration (latestAccepted pre) e rules := by
  obtain ⟨hholding, houtcome⟩ := outcome_of_split (recorded_of_run hrun) hsplit
  obtain ⟨hqers, hurrs⟩ := hholding.active_subset
  rw [hcall, hok] at houtcome
  obtain ⟨⟨-, -, hvalid⟩, hafter⟩ := houtcome.of_accepted
  refine ⟨fun qer hqer => ?_, fun urr hurr => ?_⟩
  · rw [hafter]
    exact hholding.aligned.qers.settled hholding.qerIds.qerKeys hvalid.qerIds.qerKeys
      (List.mem_map_of_mem hqer) (List.map_subset _ hqers)
  · rw [hafter]
    exact hholding.aligned.urrs.settled hholding.urrIds.urrKeys hvalid.urrIds.urrKeys
      (List.mem_map_of_mem hurr) (List.map_subset _ hurrs)

end Runs

/-- An update, a write and another update. -/
def secondUpdateRun (second : RuleSet) : Option (List ServiceEvent × RuleService) :=
  run exec (new {})
    [.update "u1" basicRules, .writeTokens 30 { tokensBytes := 123 }, .update "u2" second]

/-- The next version of `basicRules`. -/
def nextRules : RuleSet := { basicRules with version := 4 }

theorem nextRun_isSome : (secondUpdateRun nextRules).isSome = true := by decide +kernel

/-- The events of that run. -/
def nextEvents : List ServiceEvent := ((secondUpdateRun nextRules).get nextRun_isSome).1

theorem nextEvents_length : 2 < nextEvents.length := by decide +kernel

theorem state_kept_by_generation_next :
    StateByGeneration (latestAccepted (nextEvents.take 2)) (nextEvents.get ⟨2, nextEvents_length⟩)
      nextRules ∧
    (nextEvents.get ⟨2, nextEvents_length⟩).after.runtime.qers[(30 : UInt32)]?
      = some { tokensBytes := 123 } :=
  ⟨@state_kept_by_generation _ {} _ nextEvents (nextEvents.take 2) (nextEvents.drop 3)
    (Option.some_get nextRun_isSome).symm (nextEvents.get ⟨2, nextEvents_length⟩)
    (take_append_get_cons_drop nextEvents ⟨2, nextEvents_length⟩) "u2" nextRules rfl rfl,
    by decide +kernel⟩

/-- State is kept within the session of the active ruleset only. -/
def StateBySession (e : ServiceEvent) (rules : RuleSet) : Prop :=
  (∀ qer ∈ rules.qers,
    (∃ old, e.before.active = some old ∧ old.sessionId = rules.sessionId ∧
      qer.item.In (old.qers.map Qer.item)) ∨
    e.after.runtime.qers[qer.id.value]? = some (freshTokens qer)) ∧
  ∀ urr ∈ rules.urrs,
    (∃ old, e.before.active = some old ∧ old.sessionId = rules.sessionId ∧
      urr.item.In (old.urrs.map Urr.item)) ∨
    e.after.runtime.urrs[urr.id.value]? = some {}

/-- `nextRules` for another session. -/
def otherSessionRules : RuleSet := { nextRules with sessionId := "session-2" }

theorem otherSessionRun_isSome : (secondUpdateRun otherSessionRules).isSome = true := by
  decide +kernel

def otherSessionEvents : List ServiceEvent :=
  ((secondUpdateRun otherSessionRules).get otherSessionRun_isSome).1

theorem otherSessionEvents_length : 2 < otherSessionEvents.length := by decide +kernel

/-- The second update. -/
def otherSessionUpdate : ServiceEvent :=
  otherSessionEvents.get ⟨2, otherSessionEvents_length⟩

/-- The tokens of one session are handed to the next. -/
theorem state_outlives_session :
    ¬ ∀ (limits : CapacityLimits) (calls : List ServiceCall) (es : List ServiceEvent)
        (s : RuleService), run exec (new limits) calls = some (es, s) →
      ∀ e ∈ es, ∀ updateId rules, e.input = .update updateId rules →
        e.output = .returned (.ok ()) → StateBySession e rules := by
  intro h
  obtain ⟨htokens, -⟩ := h {} _ otherSessionEvents
    ((secondUpdateRun otherSessionRules).get otherSessionRun_isSome).2
    (Option.some_get otherSessionRun_isSome).symm otherSessionUpdate (List.get_mem _ _) "u2"
    otherSessionRules rfl rfl
  have hsession : otherSessionUpdate.before.active.map (·.sessionId) = some "session-1" := by
    decide +kernel
  have hkept : otherSessionUpdate.after.runtime.qers[(30 : UInt32)]?
      = some { tokensBytes := 123 } := by decide +kernel
  rcases htokens { id := ⟨30⟩, rateBitsPerSecond := 10000000, burstBytes := 20000 }
    (List.mem_singleton.mpr rfl) with ⟨old, hactive, hsame, -⟩ | hfresh
  · rw [hactive, Option.map_some, hsame] at hsession
    exact absurd hsession (by decide)
  · rw [hkept] at hfresh
    exact absurd hfresh (by decide)

end RuleService

end UpfPolicy
