/-
UpfPolicy.Application.MigrationTheorems — the two migrations agree.

`RuleService::update` looks an old generation up with `find`;
`PacketPipeline::install` reads it with `operator[]`, which adds a zero
generation under a missing ID, and then looks for the state as well. On a
runtime state that keeps states and generations under the same IDs both
compute the rebuilt stores of `Support.Generations`, the generation zero
included: an added generation has no state beside it.
-/
import UpfPolicy.Application.RuleServiceTheorems
import UpfPolicy.Application.ProcessTheorems

namespace UpfPolicy

open Support

/-! ## Accepted calls -/

theorem RuleService.update_runtime {s : RuleService} {updateId : String} {rules : RuleSet}
    (hok : (s.update updateId rules).1 = .ok ()) :
    (s.update updateId rules).2.runtime = RuleService.migrate s.runtime rules := by
  unfold RuleService.update at hok ⊢
  split at hok
  · cases hok
  · rename_i hid
    rw [if_neg hid]
    split at hok
    · cases hok
    · rename_i hold
      rw [if_neg hold]
      cases hvalid : validateRuleSet rules s.limits with
      | error e => rw [hvalid] at hok; cases hok
      | ok u => rfl

theorem PacketPipeline.install_runtime {p : PacketPipeline} {rules : RuleSet}
    (hok : (p.install rules).1 = .ok ()) :
    RuleSetValid rules p.limits ∧
      (p.install rules).2.runtime = PacketPipeline.migrate p.runtime rules := by
  unfold PacketPipeline.install at hok ⊢
  cases hvalid : validateRuleSet rules p.limits with
  | error e => rw [hvalid] at hok; cases hok
  | ok u => exact ⟨(validateRuleSet_ok_iff rules p.limits).mp hvalid, rfl⟩

/-! ## Reachable runtime states -/

theorem RuleService.paired_of_reachable {limits : CapacityLimits} {s : RuleService}
    (h : Reachable RuleService.exec (RuleService.new limits) s) : s.runtime.Paired := by
  obtain ⟨calls, es, hrun⟩ := h
  have hheld := RuleService.holding_of_recorded (recorded_of_run hrun)
  exact hheld.aligned.paired hheld.qerIds hheld.urrIds

theorem PacketPipeline.WellFormed.paired {p : PacketPipeline} (h : p.WellFormed) :
    p.runtime.Paired :=
  h.aligned.paired h.qerIds h.urrIds

/-- Rebuilding a runtime state for the rules it is aligned with. -/
theorem Aligned.rebuilt_self {rules : RuleSet} {runtime : RuntimeState} (h : Aligned rules runtime)
    (hqers : DistinctIds Qer.id rules.qers) (hurrs : DistinctIds Urr.id rules.urrs) :
    .ofStores (runtime.qerStore.rebuilt (rules.qers.map Qer.item))
      (runtime.urrStore.rebuilt (rules.urrs.map Urr.item)) = runtime := by
  rw [h.qers.rebuilt_self hqers.qerKeys, h.urrs.rebuilt_self hurrs.urrKeys]
  rfl

/-- Installing the installed ruleset again changes no runtime state. -/
theorem PacketPipeline.WellFormed.reinstall {p : PacketPipeline} (h : p.WellFormed) {rules : RuleSet}
    (hrules : p.rules = some rules) :
    (p.install rules).1 = .ok () ∧ (p.install rules).2.runtime = p.runtime := by
  have hvalid := h.valid rules hrules
  have hok : (p.install rules).1 = .ok () := by
    rw [PacketPipeline.install, (validateRuleSet_ok_iff rules p.limits).mpr hvalid]
  refine ⟨hok, ?_⟩
  rw [(PacketPipeline.install_runtime hok).2, PacketPipeline.migrate_of_paired h.paired hvalid,
    (h.aligned_of_rules hrules).rebuilt_self hvalid.qerIds hvalid.urrIds]

/-- **The two migration paths agree.** The runtime states both components
reach keep states and generations under the same IDs; from any such state
an accepted `update` and an accepted `install` of one ruleset leave the
same four maps; and installing the installed ruleset again, at any point of
any run, is accepted and changes none of them. -/
theorem migrations_agree [InetText] :
    (∀ limits s, Reachable RuleService.exec (RuleService.new limits) s → s.runtime.Paired) ∧
    (∀ limits p, Reachable PacketPipeline.exec (PacketPipeline.new limits) p → p.runtime.Paired) ∧
    (∀ (s : RuleService) (p : PacketPipeline) (updateId : String) (rules : RuleSet),
      s.runtime = p.runtime → p.runtime.Paired → (s.update updateId rules).1 = .ok () →
      (p.install rules).1 = .ok () →
        (s.update updateId rules).2.runtime = (p.install rules).2.runtime) ∧
    (∀ limits p rules, Reachable PacketPipeline.exec (PacketPipeline.new limits) p →
      p.rules = some rules →
        (p.install rules).1 = .ok () ∧ (p.install rules).2.runtime = p.runtime) := by
  refine ⟨fun _ _ h => RuleService.paired_of_reachable h,
    fun _ _ h => (PacketPipeline.wellFormed_of_reachable h).paired, ?_,
    fun _ _ _ h hrules => (PacketPipeline.wellFormed_of_reachable h).reinstall hrules⟩
  intro s p updateId rules hsame hpaired hupdate hinstall
  obtain ⟨hvalid, hinstalled⟩ := PacketPipeline.install_runtime hinstall
  rw [RuleService.update_runtime hupdate, hinstalled, hsame, RuleService.migrate_of_paired hpaired,
    PacketPipeline.migrate_of_paired hpaired hvalid, RuleService.rebuiltRuntime]

theorem migrations_agree_next :
    (((RuleService.new {}).update "u1" basicRules).2.update "u2" RuleService.nextRules).2.runtime
      = (((PacketPipeline.new {}).install basicRules).2.install RuleService.nextRules).2.runtime ∧
    (((PacketPipeline.new {}).install basicRules).2.install basicRules).2.runtime
      = ((PacketPipeline.new {}).install basicRules).2.runtime := by
  obtain ⟨-, hpaired, hagree, hreinstall⟩ := @migrations_agree PacketPipeline.dottedText
  have hfirst := hagree (RuleService.new {}) (PacketPipeline.new {}) "u1" basicRules rfl
    ⟨by simp [PacketPipeline.new], by simp [PacketPipeline.new]⟩ (by decide) (by decide)
  have hreach : Reachable (@PacketPipeline.exec PacketPipeline.dottedText) (PacketPipeline.new {})
      ((PacketPipeline.new {}).install basicRules).2 := ⟨[.install basicRules], _, rfl⟩
  refine ⟨?_, (hreinstall _ _ _ hreach rfl).2⟩
  exact hagree _ _ "u2" _ hfirst (hpaired _ _ hreach) (by decide) (by decide)

end UpfPolicy
