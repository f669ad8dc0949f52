/-
UpfPolicy.Application.InstallTheorems — the runtime state `install` leaves.

The loops of `install` read maps that `operator[]` grows while they walk
the rules. Under distinct rule IDs and matching key sets (`Paired`) they
nevertheless compute the rebuilt stores of `Support.Generations`
(`migrate_of_paired`).

`Aligned` ties a runtime state to a ruleset: its two stores hold exactly
the rules, under their installed generations. A pipeline is `WellFormed`
when its ruleset is valid and its runtime state is aligned with it;
`install` establishes it and `process` keeps it.
-/
import UpfPolicy.Application.PacketPipeline
import UpfPolicy.Domain.ValidationTheorems

namespace UpfPolicy

open Support

/-! ## The loop -/

/-- One turn on a store whose keys have generations: the item carries over
what it should, and only its own generation may be added to the old store. -/
theorem migrateRule_eq {σ : Type} [Inhabited σ] (s m : Store UInt32 UInt32 σ)
    (i : Item UInt32 UInt32 σ) (hpaired : s.generations[i.key]? = none → s.entries[i.key]? = none) :
    PacketPipeline.migrateRule (s, m) i =
      ({ s with generations := (subscript s.generations i.key).2 },
        { entries := m.entries.insert i.key (s.carried i)
          generations := m.generations.insert i.key i.generation }) := by
  have hgen : (subscript s.generations i.key).1 = s.generations[i.key]?.getD default :=
    subscript_fst ..
  simp only [PacketPipeline.migrateRule, Store.carried, hgen,
    Std.ExtTreeMap.contains_eq_isSome_getElem?]
  cases hentry : s.entries[i.key]? with
  | none => simp
  | some entry =>
    cases hg : s.generations[i.key]? with
    | none =>
      rw [hpaired hg] at hentry
      cases hentry
    | some generation =>
      by_cases hsame : generation = i.generation
      · simp [hsame, subscript_of_getElem? hentry]
      · simp [hsame]

/-- The loop: the new store gets one entry for each item. -/
theorem foldl_migrateRule {σ : Type} [Inhabited σ] (items : List (Item UInt32 UInt32 σ))
    (hnd : (items.map (·.key)).Nodup) (s m : Store UInt32 UInt32 σ)
    (hpaired : ∀ k : UInt32, s.generations[k]? = none → s.entries[k]? = none) :
    (items.foldl PacketPipeline.migrateRule (s, m)).2 =
      { entries := items.foldl (fun t i => t.insert i.key (s.carried i)) m.entries
        generations := items.foldl (fun t i => t.insert i.key i.generation) m.generations } := by
  induction items generalizing s m with
  | nil => rfl
  | cons i rest ih =>
    rw [List.map_cons, List.nodup_cons] at hnd
    obtain ⟨hnew, hrest⟩ := hnd
    have hother : ∀ j ∈ rest, i.key ≠ j.key := by
      intro j hj heq
      exact hnew (List.mem_map.mpr ⟨j, hj, heq.symm⟩)
    rw [List.foldl_cons, migrateRule_eq s m i (hpaired i.key), ih hrest]
    · -- a later item has another key, so the added generation does not reach it
      rw [List.foldl_cons, List.foldl_cons]
      congr 1
      refine List.foldl_ext _ _ _ ?_
      intro t j hj
      have hcarried : ({ s with generations := (subscript s.generations i.key).2 } :
          Store UInt32 UInt32 σ).carried j = s.carried j :=
        Store.carried_congr rfl (getElem?_subscript_snd_of_ne _ (hother j hj))
      rw [hcarried]
    · intro k hk
      by_cases hik : i.key = k
      · subst hik
        refine hpaired i.key ?_
        cases hg : s.generations[i.key]? with
        | none => rfl
        | some generation => rw [subscript_of_getElem? hg, hg] at hk; cases hk
      · rw [getElem?_subscript_snd_of_ne _ hik] at hk
        exact hpaired k hk

/-! ## Runtime states that fit a ruleset -/

/-- The two stores of the runtime state hold the rules of the ruleset. -/
structure Aligned (rules : RuleSet) (runtime : RuntimeState) : Prop where
  qers : runtime.qerStore.Holds (rules.qers.map Qer.item)
  urrs : runtime.urrStore.Holds (rules.urrs.map Urr.item)

theorem DistinctIds.qerKeys {rules : RuleSet} (h : DistinctIds Qer.id rules.qers) :
    ((rules.qers.map Qer.item).map (·.key)).Nodup := by
  rw [List.map_map]
  exact h.nodup

theorem DistinctIds.urrKeys {rules : RuleSet} (h : DistinctIds Urr.id rules.urrs) :
    ((rules.urrs.map Urr.item).map (·.key)).Nodup := by
  rw [List.map_map]
  exact h.nodup

namespace Aligned

variable {rules : RuleSet} {runtime : RuntimeState}

/-- An installed QER has a token state. -/
theorem tokens (h : Aligned rules runtime) {qer : Qer} (hqer : qer ∈ rules.qers) :
    ∃ state, runtime.qers[qer.id.value]? = some state :=
  h.qers.entry (List.mem_map.mpr ⟨qer, hqer, rfl⟩)

/-- An installed URR has counters. -/
theorem usage (h : Aligned rules runtime) {urr : Urr} (hurr : urr ∈ rules.urrs) :
    ∃ state, runtime.urrs[urr.id.value]? = some state :=
  h.urrs.entry (List.mem_map.mpr ⟨urr, hurr, rfl⟩)

end Aligned

/-- States and generations are kept under the same IDs. -/
structure RuntimeState.Paired (runtime : RuntimeState) : Prop where
  qers : ∀ id, id ∈ runtime.qers ↔ id ∈ runtime.qerGenerations
  urrs : ∀ id, id ∈ runtime.urrs ↔ id ∈ runtime.urrGenerations

namespace RuntimeState.Paired

variable {runtime : RuntimeState}

theorem qerStore (h : runtime.Paired) : runtime.qerStore.Paired := h.qers

theorem urrStore (h : runtime.Paired) : runtime.urrStore.Paired := h.urrs

end RuntimeState.Paired

theorem Aligned.paired {rules : RuleSet} {runtime : RuntimeState} (h : Aligned rules runtime)
    (hqers : DistinctIds Qer.id rules.qers) (hurrs : DistinctIds Urr.id rules.urrs) :
    runtime.Paired :=
  ⟨h.qers.paired hqers.qerKeys, h.urrs.paired hurrs.urrKeys⟩

/-- The loops of `install`, on a paired state. -/
theorem PacketPipeline.migrate_of_paired {runtime : RuntimeState} (h : runtime.Paired)
    {rules : RuleSet} {limits : CapacityLimits} (hvalid : RuleSetValid rules limits) :
    PacketPipeline.migrate runtime rules =
      .ofStores (runtime.qerStore.rebuilt (rules.qers.map Qer.item))
        (runtime.urrStore.rebuilt (rules.urrs.map Urr.item)) := by
  rw [PacketPipeline.migrate,
    foldl_migrateRule _ hvalid.qerIds.qerKeys _ _ (fun _ => h.qerStore.entry_eq_none),
    foldl_migrateRule _ hvalid.urrIds.urrKeys _ _ (fun _ => h.urrStore.entry_eq_none)]
  rfl

/-! ## Well-formed pipelines -/

namespace PacketPipeline

/-- The rules the runtime state holds: none before the first `install`. -/
def heldRules (p : PacketPipeline) : RuleSet := p.rules.getD {}

/-- What holds of every pipeline that `install` and `process` build. -/
structure WellFormed (p : PacketPipeline) : Prop where
  valid : ∀ rules, p.rules = some rules → RuleSetValid rules p.limits
  aligned : Aligned p.heldRules p.runtime

theorem wellFormed_new (limits : CapacityLimits) : (new limits).WellFormed :=
  ⟨fun _ h => (by cases h), Store.holds_empty, Store.holds_empty⟩

theorem WellFormed.qerIds {p : PacketPipeline} (h : p.WellFormed) :
    DistinctIds Qer.id p.heldRules.qers := by
  cases hrules : p.rules with
  | none => simp only [heldRules, hrules, Option.getD_none]; exact ⟨by simp, by simp⟩
  | some rules => simp only [heldRules, hrules, Option.getD_some]; exact (h.valid rules hrules).qerIds

theorem WellFormed.urrIds {p : PacketPipeline} (h : p.WellFormed) :
    DistinctIds Urr.id p.heldRules.urrs := by
  cases hrules : p.rules with
  | none => simp only [heldRules, hrules, Option.getD_none]; exact ⟨by simp, by simp⟩
  | some rules => simp only [heldRules, hrules, Option.getD_some]; exact (h.valid rules hrules).urrIds

/-- The runtime state is aligned with the installed ruleset. -/
theorem WellFormed.aligned_of_rules {p : PacketPipeline} (h : p.WellFormed) {rules : RuleSet}
    (hrules : p.rules = some rules) : Aligned rules p.runtime := by
  have haligned := h.aligned
  rwa [heldRules, hrules] at haligned

/-- Everything `install` does: nothing, or the ruleset with its rebuilt
stores. -/
inductive InstallOutcome (p : PacketPipeline) (rules : RuleSet) (result : Except String Unit)
    (p' : PacketPipeline) : Prop where
  | rejected (hinvalid : ¬ RuleSetValid rules p.limits) (hresult : result ≠ .ok ())
      (hkept : p' = p)
  | accepted (hvalid : RuleSetValid rules p.limits) (hresult : result = .ok ())
      (hinstalled : p' = { p with
        rules := some rules
        runtime := .ofStores (p.runtime.qerStore.rebuilt (rules.qers.map Qer.item))
          (p.runtime.urrStore.rebuilt (rules.urrs.map Urr.item)) })

/-- **Everything `install` can do.** -/
theorem WellFormed.install_outcome {p : PacketPipeline} (h : p.WellFormed) (rules : RuleSet) :
    InstallOutcome p rules (p.install rules).1 (p.install rules).2 := by
  unfold PacketPipeline.install
  cases hresult : validateRuleSet rules p.limits with
  | error e =>
    refine .rejected (fun hvalid => ?_) (by simp) rfl
    rw [(validateRuleSet_ok_iff rules p.limits).mpr hvalid] at hresult
    cases hresult
  | ok u =>
    have hvalid := (validateRuleSet_ok_iff rules p.limits).mp hresult
    have hmigrate := migrate_of_paired (h.aligned.paired h.qerIds h.urrIds) hvalid
    exact .accepted hvalid rfl (by rw [hmigrate])

theorem InstallOutcome.wellFormed {p p' : PacketPipeline} {rules : RuleSet}
    {result : Except String Unit} (houtcome : InstallOutcome p rules result p')
    (h : p.WellFormed) : p'.WellFormed := by
  cases houtcome with
  | rejected _ _ hkept => rw [hkept]; exact h
  | accepted hvalid _ hinstalled =>
    rw [hinstalled]
    refine ⟨fun _ hrules => ?_, ?_, ?_⟩
    · cases hrules; exact hvalid
    · exact Store.holds_rebuilt _ hvalid.qerIds.qerKeys
    · exact Store.holds_rebuilt _ hvalid.urrIds.urrKeys

/-- Whether a ruleset is accepted depends on the limits only. -/
theorem install_fst {p p' : PacketPipeline} (hlimits : p'.limits = p.limits) (rules : RuleSet) :
    (p'.install rules).1 = (p.install rules).1 := by
  unfold PacketPipeline.install
  rw [hlimits]
  cases validateRuleSet rules p.limits <;> rfl

theorem InstallOutcome.limits {p p' : PacketPipeline} {rules : RuleSet}
    {result : Except String Unit} (houtcome : InstallOutcome p rules result p') :
    p'.limits = p.limits := by
  cases houtcome with
  | rejected _ _ hkept => rw [hkept]
  | accepted _ _ hinstalled => rw [hinstalled]

end PacketPipeline

end UpfPolicy
