/-
UpfPolicy.Application.VersionTheorems — convergence and versions over runs
of a `RuleService`.

`remove` forgets the version of the ruleset it removes, and
`appliedVersion_` survives it. `converged_acknowledged_iff` and
`versions_forward_iff` say which runs nevertheless claim convergence only
for acknowledged rulesets, and which only move versions forward; each is
followed by a run that does not.
-/
import UpfPolicy.Application.RuleServiceTheorems

namespace UpfPolicy

open Support

namespace RuleService

/-! ## Convergence -/

theorem convergence_eq_converged {s : RuleService} :
    s.convergence = .converged ↔
      ∃ rules, s.intended = some rules ∧ rules.version = s.appliedVersion := by
  unfold convergence
  cases s.intended with
  | none =>
    simp only [Option.isNone_none, Option.any_none, Bool.true_and]
    split <;> simp
  | some rules =>
    simp only [Option.isNone_some, Option.any_some, Bool.false_and, beq_iff_eq]
    by_cases hsame : rules.version = s.appliedVersion
    · simp [hsame]
    · simp [hsame]

/-- The event is an update the service accepts. -/
def UpdateAccepted (e : ServiceEvent) : Prop :=
  ∃ updateId rules, e.input = .update updateId rules ∧ e.output = .returned (.ok ())

/-- The ruleset was installed under this update ID, `post` is what followed,
and no update was accepted since. -/
structure InstalledSince (es : List ServiceEvent) (updateId : String) (rules : RuleSet)
    (post : List ServiceEvent) : Prop where
  installed : ∃ pre e, es = pre ++ e :: post ∧ e.input = .update updateId rules ∧
    e.output = .returned (.ok ())
  latest : ∀ e ∈ post, ¬ UpdateAccepted e

/-- The update that installed the intended ruleset was followed by a
`markApplied` with its update ID and version. -/
def Acknowledged (es : List ServiceEvent) (s : RuleService) : Prop :=
  ∃ rules post, s.intended = some rules ∧ InstalledSince es s.latestUpdateId rules post ∧
    ∃ e ∈ post, e.input = .markApplied s.latestUpdateId rules.version

theorem InstalledSince.snoc {es post : List ServiceEvent} {updateId : String} {rules : RuleSet}
    (h : InstalledSince es updateId rules post) {e : ServiceEvent} (he : ¬ UpdateAccepted e) :
    InstalledSince (es ++ [e]) updateId rules (post ++ [e]) := by
  obtain ⟨pre, f, hsplit, hinput, houtput⟩ := h.installed
  refine ⟨⟨pre, f, by rw [hsplit, List.append_assoc, List.cons_append], hinput, houtput⟩, ?_⟩
  intro g hg
  rcases List.mem_append.mp hg with hg | hg
  · exact h.latest g hg
  · rw [List.mem_singleton.mp hg]
    exact he

/-- The intended ruleset has its installing update in the run, and it is
acknowledged if its version is the applied one. -/
def AckInv (es : List ServiceEvent) (s : RuleService) : Prop :=
  ∀ rules, s.intended = some rules → ∃ post, InstalledSince es s.latestUpdateId rules post ∧
    (rules.version = s.appliedVersion →
      ∃ e ∈ post, e.input = .markApplied s.latestUpdateId rules.version)

section Acknowledged

variable {s s' : RuleService} {es : List ServiceEvent} {e : ServiceEvent}

/-- An event that changes none of the three fields keeps the invariant. -/
theorem AckInv.keep (h : AckInv es s) (hintended : s'.intended = s.intended)
    (hid : s'.latestUpdateId = s.latestUpdateId) (happlied : s'.appliedVersion = s.appliedVersion)
    (he : ¬ UpdateAccepted e) : AckInv (es ++ [e]) s' := by
  intro rules hrules
  rw [hintended] at hrules
  rw [hid, happlied]
  obtain ⟨post, hsince, hack⟩ := h rules hrules
  refine ⟨post ++ [e], hsince.snoc he, fun hsame => ?_⟩
  obtain ⟨a, ha, hinput⟩ := hack hsame
  exact ⟨a, List.mem_append_left _ ha, hinput⟩

/-- **One call keeps the invariant**, unless it installs the version that is
already applied. -/
theorem AckInv.step (h : AckInv es s) {call : ServiceCall} {reply : ServiceReply}
    (houtcome : ServiceOutcome s call reply s')
    (hfresh : ∀ updateId rules, call = .update updateId rules → s.Admits updateId rules →
      rules.version ≠ s.appliedVersion) :
    AckInv (es ++ [⟨s, call, reply, s'⟩]) s' := by
  cases houtcome with
  | @updated updateId rules hadmits =>
    intro rules' hrules
    cases hrules
    refine ⟨[], ⟨⟨es, _, rfl, rfl, rfl⟩, fun _ hnil => by cases hnil⟩, fun hsame => ?_⟩
    exact absurd hsame (hfresh updateId rules rfl hadmits)
  | removed =>
    intro rules hrules
    cases hrules
  | @applied intended hintended =>
    intro rules hrules
    rw [hintended] at hrules
    cases hrules
    obtain ⟨post, hsince, -⟩ := h intended hintended
    refine ⟨_, hsince.snoc (by simp [UpdateAccepted]), fun _ => ?_⟩
    exact ⟨_, List.mem_append_right _ (List.mem_singleton.mpr rfl), rfl⟩
  | updateRejected => exact h.keep rfl rfl rfl (by simp [UpdateAccepted])
  | removeRejected => exact h.keep rfl rfl rfl (by simp [UpdateAccepted])
  | stale => exact h.keep rfl rfl rfl (by simp [UpdateAccepted])
  | wroteTokens => exact h.keep rfl rfl rfl (by simp [UpdateAccepted])
  | wroteUsage => exact h.keep rfl rfl rfl (by simp [UpdateAccepted])

/-- The update would install the version that is already applied. -/
def InstallsApplied (e : ServiceEvent) : Prop :=
  ∃ updateId rules, e.input = .update updateId rules ∧ e.before.Admits updateId rules ∧
    rules.version = e.before.appliedVersion

theorem ackInv_of_recorded {limits : CapacityLimits} (hrun : Recorded exec (new limits) es s)
    (hfresh : ∀ e ∈ es, ¬ InstallsApplied e) : AckInv es s := by
  induction hrun with
  | nil =>
    intro rules hrules
    cases hrules
  | @snoc es s t call reply hrec hexec ih =>
    have hinv := ih fun e he => hfresh e (List.mem_append_left _ he)
    refine hinv.step ((holding_of_recorded hrec).exec_outcome hexec) ?_
    intro updateId rules hcall hadmits hsame
    exact hfresh _ (List.mem_append_right _ (List.mem_singleton.mpr rfl))
      ⟨updateId, rules, hcall, hadmits, hsame⟩

theorem AckInv.acknowledged (h : AckInv es s) (hconverged : s.convergence = .converged) :
    Acknowledged es s := by
  obtain ⟨rules, hintended, hsame⟩ := convergence_eq_converged.mp hconverged
  obtain ⟨post, hsince, hack⟩ := h rules hintended
  exact ⟨rules, post, hintended, hsince, hack hsame⟩

/-- Nothing is acknowledged right after an accepted update. -/
theorem not_acknowledged_of_updateAccepted (he : UpdateAccepted e) :
    ¬ Acknowledged (es ++ [e]) s := by
  rintro ⟨rules, post, -, ⟨⟨pre, f, hsplit, -, -⟩, hlatest⟩, a, ha, -⟩
  rcases List.eq_nil_or_concat post with rfl | ⟨init, last, rfl⟩
  · cases ha
  · rw [List.concat_eq_append, ← List.cons_append, ← List.append_assoc] at hsplit
    obtain ⟨-, hlast⟩ := List.append_inj' hsplit rfl
    cases hlast
    exact hlatest e (by simp) he

/-- **When CONVERGED can be believed.** In every state of a run the service
is CONVERGED only if the intended ruleset was acknowledged, exactly if no
update of the run installs the version that is already applied. -/
theorem converged_acknowledged_iff {limits : CapacityLimits} {calls : List ServiceCall}
    (hrun : run exec (new limits) calls = some (es, s)) :
    (∀ pre post t, es = pre ++ post → Recorded exec (new limits) pre t →
      t.convergence = .converged → Acknowledged pre t) ↔
    ∀ e ∈ es, ¬ InstallsApplied e := by
  have hrec := recorded_of_run hrun
  constructor
  · rintro hhonest e he ⟨updateId, rules, hcall, hadmits, hsame⟩
    obtain ⟨pre, post, hsplit⟩ := List.append_of_mem he
    obtain ⟨t, hpre, hpost⟩ := hrec.split hsplit
    obtain ⟨rfl, hexec, -⟩ := hpost.uncons
    have houtcome := (outcome_of_split hrec hsplit).2
    rw [hcall] at houtcome
    have hok := houtcome.accepts hadmits
    rw [hok] at houtcome
    obtain ⟨-, hafter⟩ := houtcome.of_accepted
    refine not_acknowledged_of_updateAccepted ⟨updateId, rules, hcall, hok⟩
      (hhonest (pre ++ [e]) post e.after ?_ (hpre.snoc hexec) ?_)
    · rw [hsplit, List.append_assoc, List.singleton_append]
    · rw [convergence_eq_converged, hafter]
      exact ⟨rules, rfl, hsame⟩
  · intro hfresh pre post t hsplit hpre hconverged
    refine (ackInv_of_recorded hpre fun e he => hfresh e ?_).acknowledged hconverged
    rw [hsplit]
    exact List.mem_append_left _ he

end Acknowledged

/-- An acknowledged update. -/
def ackRun : Option (List ServiceEvent × RuleService) :=
  run exec (new {}) [.update "u1" basicRules, .markApplied "u1" 3]

theorem ackRun_isSome : ackRun.isSome = true := by decide +kernel

theorem converged_acknowledged_iff_ack :
    (ackRun.get ackRun_isSome).2.convergence = .converged ∧
      ((∀ pre post t, (ackRun.get ackRun_isSome).1 = pre ++ post → Recorded exec (new {}) pre t →
        t.convergence = .converged → Acknowledged pre t) ↔
      ∀ e ∈ (ackRun.get ackRun_isSome).1, ¬ InstallsApplied e) :=
  ⟨by decide +kernel, @converged_acknowledged_iff (ackRun.get ackRun_isSome).2
    (ackRun.get ackRun_isSome).1 {} _ (Option.some_get ackRun_isSome).symm⟩

/-- A ruleset is applied, removed and installed again. -/
def recreateRun : Option (List ServiceEvent × RuleService) :=
  run exec (new {})
    [.update "u1" basicRules, .markApplied "u1" 3, .remove "u2" 4, .update "u3" basicRules]

theorem recreateRun_isSome : recreateRun.isSome = true := by decide +kernel

def recreateEvents : List ServiceEvent := (recreateRun.get recreateRun_isSome).1

theorem recreateEvents_length : recreateEvents.length = 4 := by decide +kernel

/-- The second installation is CONVERGED without an acknowledgement. -/
theorem converged_unacknowledged :
    ¬ ∀ (limits : CapacityLimits) (calls : List ServiceCall) (es : List ServiceEvent)
        (s : RuleService), run exec (new limits) calls = some (es, s) →
      s.convergence = .converged → Acknowledged es s := by
  intro h
  have hack := h {} _ recreateEvents (recreateRun.get recreateRun_isSome).2
    (Option.some_get recreateRun_isSome).symm (by decide +kernel)
  have hsplit := take_append_get_cons_drop recreateEvents
    ⟨3, by rw [recreateEvents_length]; decide⟩
  rw [List.drop_eq_nil_of_le (Nat.le_of_eq recreateEvents_length)] at hsplit
  rw [hsplit] at hack
  exact not_acknowledged_of_updateAccepted ⟨"u3", basicRules, rfl, rfl⟩ hack

/-! ## Versions -/

/-- The version an accepted update or remove carries. -/
def acceptedVersion (e : ServiceEvent) : Option UInt64 :=
  match e.input, e.output with
  | .update _ rules, .returned (.ok ()) => some rules.version
  | .remove _ version, .returned (.ok ()) => some version
  | _, _ => none

/-- The versions of the accepted calls, in order. -/
def acceptedVersions (es : List ServiceEvent) : List UInt64 := es.filterMap acceptedVersion

/-- Accepted versions increase strictly, and the applied version never
decreases. -/
structure VersionsForward (es : List ServiceEvent) : Prop where
  increasing : (acceptedVersions es).Pairwise (· < ·)
  applied : ∀ e ∈ es, e.before.appliedVersion ≤ e.after.appliedVersion

/-- The active version is the newest, and the applied one is among the
accepted. -/
structure VersionInv (es : List ServiceEvent) (s : RuleService) : Prop where
  forward : VersionsForward es
  active : ∀ rules, s.active = some rules →
    rules.version ∈ acceptedVersions es ∧ ∀ v ∈ acceptedVersions es, v ≤ rules.version
  applied : s.appliedVersion = 0 ∨ s.appliedVersion ∈ acceptedVersions es

section Versions

variable {s s' : RuleService} {es : List ServiceEvent} {e : ServiceEvent}

theorem acceptedVersions_snoc (es : List ServiceEvent) (e : ServiceEvent) :
    acceptedVersions (es ++ [e]) = acceptedVersions es ++ (acceptedVersion e).toList := by
  rw [acceptedVersions, List.filterMap_append]
  cases h : acceptedVersion e <;> simp [acceptedVersions, h]

/-- An accepted call with a version above all others. -/
theorem VersionInv.accept (h : VersionInv es e.before) {version : UInt64}
    (he : acceptedVersion e = some version) (hnew : ∀ v ∈ acceptedVersions es, v < version)
    (happlied : e.after.appliedVersion = e.before.appliedVersion)
    (hactive : ∀ rules, e.after.active = some rules → rules.version = version) :
    VersionInv (es ++ [e]) e.after := by
  have hsnoc : acceptedVersions (es ++ [e]) = acceptedVersions es ++ [version] := by
    rw [acceptedVersions_snoc, he, Option.toList_some]
  refine ⟨⟨?_, forall_mem_snoc h.forward.applied (by rw [happlied]; exact UInt64.le_refl _)⟩, ?_, ?_⟩
  · rw [hsnoc, List.pairwise_append]
    refine ⟨h.forward.increasing, List.pairwise_singleton .., fun v hv w hw => ?_⟩
    rw [List.mem_singleton.mp hw]
    exact hnew v hv
  · intro rules hrules
    rw [hactive rules hrules, hsnoc]
    refine ⟨by simp, fun v hv => ?_⟩
    rcases List.mem_append.mp hv with hv | hv
    · exact UInt64.le_of_lt (hnew v hv)
    · rw [List.mem_singleton.mp hv]
      exact UInt64.le_refl _
  · rw [happlied, hsnoc]
    exact h.applied.imp id (List.mem_append_left _)

/-- A call that accepts no version and keeps the active ruleset. -/
theorem VersionInv.keep (h : VersionInv es e.before) (he : acceptedVersion e = none)
    (hactive : e.after.active = e.before.active)
    (hforward : e.before.appliedVersion ≤ e.after.appliedVersion)
    (happlied : e.after.appliedVersion = 0 ∨ e.after.appliedVersion ∈ acceptedVersions es) :
    VersionInv (es ++ [e]) e.after := by
  have hsnoc : acceptedVersions (es ++ [e]) = acceptedVersions es := by
    rw [acceptedVersions_snoc, he, Option.toList_none, List.append_nil]
  refine ⟨⟨?_, forall_mem_snoc h.forward.applied hforward⟩, ?_, ?_⟩
  · rw [hsnoc]
    exact h.forward.increasing
  · rw [hsnoc, hactive]
    exact h.active
  · rw [hsnoc]
    exact happlied

/-- Every version accepted so far is below that of an admitted call. -/
theorem VersionInv.below (h : VersionInv es s) {active : RuleSet} (hactive : s.active = some active)
    {version : UInt64} (hnewer : active.version < version) :
    ∀ v ∈ acceptedVersions es, v < version := by
  intro v hv
  exact UInt64.lt_of_le_of_lt ((h.active active hactive).2 v hv) hnewer

/-- An update that is admitted while no ruleset is active is newer than all
that was accepted before. -/
def NewerThan (es : List ServiceEvent) (e : ServiceEvent) : Prop :=
  ∀ updateId rules, e.input = .update updateId rules → e.before.Admits updateId rules →
    e.before.active = none → ∀ v ∈ acceptedVersions es, v < rules.version

/-- **One call keeps the invariant**, if it is newer than the removed
rulesets. -/
theorem VersionInv.step {held : RuleSet} (h : VersionInv es s) (hholding : s.Holding held)
    {call : ServiceCall} {reply : ServiceReply} (houtcome : ServiceOutcome s call reply s')
    (hnewer : NewerThan es ⟨s, call, reply, s'⟩) :
    VersionInv (es ++ [⟨s, call, reply, s'⟩]) s' := by
  cases houtcome with
  | @updated updateId rules hadmits =>
    refine VersionInv.accept h rfl ?_ rfl (fun _ hrules => by cases hrules; rfl)
    cases hactive : s.active with
    | none => exact hnewer updateId rules rfl hadmits hactive
    | some active => exact h.below hactive (hadmits.newer active hactive)
  | removed _ hactive hlt =>
    exact VersionInv.accept h rfl (h.below hactive hlt) rfl (fun _ hrules => by cases hrules)
  | @applied intended hintended =>
    rw [hholding.intended] at hintended
    obtain ⟨hmem, hle⟩ := h.active intended hintended
    refine VersionInv.keep h rfl rfl ?_ (Or.inr hmem)
    rcases h.applied with hzero | happlied
    · rw [hzero]
      exact UInt64.zero_le
    · exact hle _ happlied
  | updateRejected => exact VersionInv.keep h rfl rfl (UInt64.le_refl _) h.applied
  | removeRejected => exact VersionInv.keep h rfl rfl (UInt64.le_refl _) h.applied
  | stale => exact VersionInv.keep h rfl rfl (UInt64.le_refl _) h.applied
  | wroteTokens => exact VersionInv.keep h rfl rfl (UInt64.le_refl _) h.applied
  | wroteUsage => exact VersionInv.keep h rfl rfl (UInt64.le_refl _) h.applied

theorem versionInv_of_recorded {limits : CapacityLimits} (hrun : Recorded exec (new limits) es s)
    (hnewer : ∀ pre e post, es = pre ++ e :: post → NewerThan pre e) : VersionInv es s := by
  induction hrun with
  | nil =>
    exact ⟨⟨List.Pairwise.nil, fun _ h => (by cases h)⟩, fun _ h => (by cases h), Or.inl rfl⟩
  | @snoc es s t call reply hrec hexec ih =>
    have hinv := ih fun pre e post hsplit =>
      hnewer pre e (post ++ [_]) (by rw [hsplit, List.append_assoc, List.cons_append])
    have hholding := holding_of_recorded hrec
    exact hinv.step hholding (hholding.exec_outcome hexec) (hnewer es _ [] rfl)

/-- **When versions only move forward.** The versions a run accepts increase
and its applied version never decreases, exactly if every update admitted
while no ruleset is active is newer than all that was accepted before it. -/
theorem versions_forward_iff {limits : CapacityLimits} {calls : List ServiceCall}
    (hrun : run exec (new limits) calls = some (es, s)) :
    VersionsForward es ↔ ∀ pre e post, es = pre ++ e :: post → NewerThan pre e := by
  have hrec := recorded_of_run hrun
  constructor
  · intro h pre e post hsplit updateId rules hcall hadmits _ v hv
    have houtcome := (outcome_of_split hrec hsplit).2
    rw [hcall] at houtcome
    have hok := houtcome.accepts hadmits
    have hversion : acceptedVersion e = some rules.version := by
      rw [acceptedVersion, hcall, hok]
    have hincreasing := h.increasing
    rw [hsplit, acceptedVersions, List.filterMap_append, List.filterMap_cons, hversion,
      List.pairwise_append] at hincreasing
    exact hincreasing.2.2 v hv _ (List.mem_cons_self ..)
  · intro hnewer
    exact (versionInv_of_recorded hrec hnewer).forward

end Versions

theorem versions_forward_iff_ack :
    VersionsForward (ackRun.get ackRun_isSome).1 ↔
      ∀ pre e post, (ackRun.get ackRun_isSome).1 = pre ++ e :: post → NewerThan pre e :=
  @versions_forward_iff (ackRun.get ackRun_isSome).2 (ackRun.get ackRun_isSome).1 {} _
    (Option.some_get ackRun_isSome).symm

/-- The rules of the test builders in their first version. -/
def firstRules : RuleSet := { basicRules with version := 1 }

/-- A removed ruleset is replaced by an older version. -/
def rollbackRun : Option (List ServiceEvent × RuleService) :=
  run exec (new {})
    [.update "u1" basicRules, .markApplied "u1" 3, .remove "u2" 4, .update "u3" firstRules,
      .markApplied "u3" 1]

theorem rollbackRun_isSome : rollbackRun.isSome = true := by decide +kernel

/-- After a removal versions move back. -/
theorem versions_move_back :
    ¬ ∀ (limits : CapacityLimits) (calls : List ServiceCall) (es : List ServiceEvent)
        (s : RuleService), run exec (new limits) calls = some (es, s) → VersionsForward es := by
  intro h
  have hincreasing := (h {} _ (rollbackRun.get rollbackRun_isSome).1
    (rollbackRun.get rollbackRun_isSome).2 (Option.some_get rollbackRun_isSome).symm).increasing
  have hversions : acceptedVersions (rollbackRun.get rollbackRun_isSome).1 = [3, 4, 1] := by
    decide +kernel
  rw [hversions] at hincreasing
  exact absurd hincreasing (by decide)

end RuleService

end UpfPolicy
