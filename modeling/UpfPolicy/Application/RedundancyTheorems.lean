/-
UpfPolicy.Application.RedundancyTheorems — calls that leave no trace.

An `install` keeps the state of every QER and URR whose generation it finds
unchanged, so installing the QERs and URRs that are installed keeps the
whole runtime state (`runtime_reinstalled`). Three kinds of calls are
therefore redundant: an `install` that is rejected, an `install` of the
installed rules in any order, and a packet beyond the result limit.
`redundant_calls_invisible` leaves any of them out of any run.
-/
import UpfPolicy.Application.OrderTheorems
import UpfPolicy.Application.VerdictTheorems

namespace UpfPolicy

open Support

namespace PacketPipeline

/-! ## Installing again -/

/-- A store that holds some items is rebuilt as it is for the same items in
any order. -/
theorem rebuilt_held {σ : Type} {s : Store UInt32 UInt32 σ} {held items : List (Item UInt32 UInt32 σ)}
    (h : s.Holds held) (hperm : held.Perm items) (hnd : (held.map (·.key)).Nodup) :
    s.rebuilt items = s := by
  rw [← Store.rebuilt_perm s hperm hnd, h.rebuilt_self hnd]

section Install

variable {p p' : PacketPipeline} {old rules : RuleSet} {result : Except String Unit}

/-- **Installing the installed QERs and URRs keeps the runtime state**,
whatever becomes of the PDRs and the FARs. -/
theorem runtime_reinstalled (h : p.WellFormed) (hold : p.rules = some old)
    (hqers : old.qers.Perm rules.qers) (hurrs : old.urrs.Perm rules.urrs)
    (houtcome : InstallOutcome p rules result p') : p'.runtime = p.runtime := by
  cases houtcome with
  | rejected _ _ hkept => rw [hkept]
  | accepted _ _ hinstalled =>
    have halign := h.aligned_of_rules hold
    have hvalid := h.valid old hold
    rw [hinstalled, rebuilt_held halign.qers (hqers.map Qer.item) hvalid.qerIds.qerKeys,
      rebuilt_held halign.urrs (hurrs.map Urr.item) hvalid.urrIds.urrKeys]
    rfl

/-- Installing the installed rules changes at most their order. -/
theorem withRules_reinstalled (h : p.WellFormed) (hold : p.rules = some old)
    (hperm : old.Permuted rules) (houtcome : InstallOutcome p rules result p') :
    p' = p.withRules (some rules) := by
  have hruntime := runtime_reinstalled h hold hperm.qers hperm.urrs houtcome
  cases houtcome with
  | rejected hinvalid _ _ => exact absurd ((h.valid old hold).perm hperm) hinvalid
  | accepted _ _ hinstalled =>
    rw [hinstalled] at hruntime ⊢
    dsimp only at hruntime
    rw [hruntime]
    rfl

end Install

/-! ## Redundant calls -/

/-- The call changes nothing but the order of the installed rules. -/
inductive Redundant (e : PipelineEvent) : Prop where
  | rejected {rules : RuleSet} {result : Except String Unit} (hinput : e.input = .install rules)
      (houtput : e.output = .installed result) (hresult : result ≠ .ok ())
  | repeated {old rules : RuleSet} (hinput : e.input = .install rules)
      (hold : e.before.rules = some old) (hperm : old.Permuted rules)
  | full {packet : Packet} {runId scenarioId : String}
      (hinput : e.input = .process packet runId scenarioId)
      (hfull : e.before.limits.results.toNat ≤ e.before.decisions.length)

theorem SameButOrder.rules_repeated {p p' : PacketPipeline} (h : SameButOrder p p')
    {old rules : RuleSet} (hold : p.rules = some old) (hperm : old.Permuted rules) :
    RulesPermuted (some rules) p'.rules := by
  have hslots := h.rules
  rw [hold] at hslots
  generalize p'.rules = slot' at hslots
  cases hslots with
  | some hother => exact .some (hperm.symm.trans hother)

section Step

variable [InetText] {p p' q : PacketPipeline} {call : PipelineCall} {reply : PipelineReply}

/-- **A redundant call** on one side only. -/
theorem SameButOrder.skip (h : SameButOrder p p') (hexec : p.exec call = some (reply, q))
    (hredundant : Redundant ⟨p, call, reply, q⟩) : SameButOrder q p' := by
  have hwf := h.left.exec hexec
  cases hredundant with
  | rejected hinput houtput hresult =>
    cases hinput
    cases houtput
    cases h.left.answered hexec with
    | installed hcall hreply houtcome =>
      cases hcall
      cases hreply
      cases houtcome with
      | rejected _ _ hkept => exact hkept ▸ h
      | accepted _ haccepted _ => exact absurd haccepted hresult
    | full hcall => cases hcall
    | settled hcall => cases hcall
  | repeated hinput hold hperm =>
    cases hinput
    cases h.left.answered hexec with
    | installed hcall _ houtcome =>
      cases hcall
      have hafter := withRules_reinstalled h.left hold hperm houtcome
      subst hafter
      exact ⟨hwf, h.right, h.rules_repeated hold hperm, h.rest⟩
    | full hcall => cases hcall
    | settled hcall => cases hcall
  | full hinput hfull =>
    cases hinput
    cases h.left.answered hexec with
    | installed hcall => cases hcall
    | full _ _ _ hafter => exact hafter ▸ h
    | settled _ hroom => exact absurd hfull (Nat.not_le.mpr hroom)

/-- **One call** on both sides. -/
theorem SameButOrder.answer (h : SameButOrder p p') (hexec : p.exec call = some (reply, q)) :
    ∃ q', p'.exec call = some (reply, q') ∧ SameButOrder q q' := by
  cases call with
  | install rules =>
    rw [exec_install] at hexec
    cases hexec
    have hperm : rules.Permuted rules := ⟨rfl, rfl, .refl _, .refl _, .refl _, .refl _⟩
    exact ⟨_, by rw [exec_install, install_fst h.limits], (h.install hperm).2⟩
  | process packet runId scenarioId =>
    obtain ⟨d, q₀, q', hprocess, hprocess', hsame⟩ := h.process packet runId scenarioId
    rw [exec_process hprocess] at hexec
    cases hexec
    exact ⟨q', exec_process hprocess', hsame⟩

/-- **Redundant calls are invisible.** Whichever of them are left out of a
run, the other calls are answered alike, and the pipeline ends up the same
but for the order of its rules. -/
theorem redundant_calls_invisible (limits : CapacityLimits) {kept : PipelineEvent → Bool}
    {calls : List PipelineCall} {es : List PipelineEvent}
    (hrun : run PacketPipeline.exec (new limits) calls = some (es, p))
    (hredundant : ∀ e ∈ es, kept e = false → Redundant e) :
    ∃ es' p', run PacketPipeline.exec (new limits) ((es.filter kept).map (·.input))
        = some (es', p') ∧
      journal es' = journal (es.filter kept) ∧ SameButOrder p p' :=
  run_filter (fun _ _ _ _ _ hs hexec _ _ => hs.answer hexec)
    (fun _ _ _ _ _ hs hexec hfair hleft => hs.skip hexec (hfair hleft)) (sameButOrder_new limits)
    hrun hredundant

end Step

/-- Keep the packets and the first `install`. -/
def beforeRules (e : PipelineEvent) : Bool :=
  match e.input with
  | .install _ => e.before.rules.isNone
  | .process _ _ _ => true

/-- `broadRules`, and later the same rules in another order. -/
def repeatedCalls : List PipelineCall :=
  [.install broadRules, .process uplinkPacket "r" "s", .install broadFirstRules]

theorem repeatedCalls_redundant {es : List PipelineEvent} {p : PacketPipeline}
    (hrun : run (@exec dottedText) (new {}) repeatedCalls = some (es, p)) :
    ∀ e ∈ es, beforeRules e = false → Redundant e := by
  obtain ⟨_, q, _, hfirst, hrest, rfl⟩ := run_cons_eq_some hrun
  obtain ⟨_, q', _, hsecond, hlast, rfl⟩ := run_cons_eq_some hrest
  obtain ⟨_, _, _, -, hnone, rfl⟩ := run_cons_eq_some hlast
  cases hnone
  have hinstalled : q.rules = some broadRules := by
    rw [@exec_install dottedText] at hfirst
    cases hfirst
    rfl
  have hwf : q.WellFormed := @WellFormed.exec dottedText _ _ _ _ (wellFormed_new {}) hfirst
  have hkept : q'.rules = q.rules := by
    cases @WellFormed.exec_outcome dottedText _ _ _ _ hwf hsecond with
    | install hcall => cases hcall
    | process _ _ hconfig _ => exact hconfig.rules
  intro e he hskipped
  simp only [List.mem_cons, List.not_mem_nil, or_false] at he
  rcases he with rfl | rfl | rfl
  · cases hskipped
  · cases hskipped
  · exact .repeated rfl (hkept.trans hinstalled) broadRules_permuted

theorem redundant_calls_invisible_repeated :
    ∃ es p es' p', es.length = 3 ∧ run (@exec dottedText) (new {}) repeatedCalls = some (es, p) ∧
      run (@exec dottedText) (new {}) ((es.filter beforeRules).map (·.input)) = some (es', p') ∧
      journal es' = journal (es.filter beforeRules) ∧ SameButOrder p p' := by
  obtain ⟨es, p, hrun⟩ := @WellFormed.run_total dottedText _ (wellFormed_new {}) repeatedCalls
  have hlength : (es.map (·.input)).length = 3 := by rw [map_input_of_run hrun]; rfl
  obtain ⟨es', p', hrest⟩ :=
    @redundant_calls_invisible dottedText _ {} _ _ _ hrun (repeatedCalls_redundant hrun)
  exact ⟨es, p, es', p', by simpa using hlength, hrun, hrest⟩

end PacketPipeline

end UpfPolicy
