/-
UpfPolicy.Application.ShutdownTheorems — what a stopped scheduler still does.

Once admission is stopped every enqueue is refused, so the three queues are
popped only: `shutdown_drains` gives what any continuation returns, when the
queues are empty, and that it makes no difference to any kind of work when
`classifyRemainder` ends the drain.
-/
import UpfPolicy.Application.SchedulerTheorems

namespace UpfPolicy

open Support

namespace Scheduler

section Stopped

variable {s t : Scheduler} {es : List SchedulerEvent} {kind : WorkKind}

/-- Nothing is accepted once admission is stopped. -/
theorem accepted_of_stopped {call : SchedulerCall} {reply : SchedulerReply}
    (hstopped : s.accepting = false) (hexec : s.exec call = some (reply, t)) :
    accepted kind ⟨s, call, reply, t⟩ = none := by
  cases exec_outcome hexec with
  | @enqueue _ k value hcall =>
    have hrefused : (s.offer k value).1 = false := by
      rw [← Bool.not_eq_true, offer_fst, hstopped]
      exact fun h => Bool.false_ne_true h.1
    rw [hrefused, accepted_enqueue hcall]
    simp
  | takeCycle => rfl
  | stopAdmission => rfl
  | classifyRemainder => rfl

/-- A stopped scheduler pops its queues or leaves them alone. -/
theorem popping_of_stopped (h : Recorded Scheduler.exec s es t) (hstopped : s.accepting = false)
    (hclear : ∀ f ∈ es, f.input ≠ .classifyRemainder) :
    t.accepting = false ∧ Popping (es.map (moveOf kind)) := by
  induction h with
  | nil => exact ⟨hstopped, by simp [Popping]⟩
  | @snoc es u t call reply hrec hexec ih =>
    obtain ⟨hbefore, hmoves⟩ := ih fun f hf => hclear f (List.mem_append_left _ hf)
    have hlast := hclear ⟨u, call, reply, t⟩ (by simp)
    refine ⟨?_, ?_⟩
    · rw [← Bool.not_eq_true, exec_accepting hexec, hbefore]
      exact fun h => Bool.false_ne_true h.1
    · rw [List.map_append, Popping, List.map_singleton]
      refine forall_mem_snoc hmoves ?_
      rw [moveOf, accepted_of_stopped hbefore hexec]
      cases call with
      | takeCycle => exact Or.inr rfl
      | classifyRemainder => exact absurd rfl hlast
      | _ => exact Or.inl rfl

/-- **A stopped scheduler drains.** After any continuation without
`classifyRemainder`, each kind of work has returned the front of its queue,
one value a cycle; all queues are empty exactly when there were as many
cycles as the longest of them had values; and whatever was returned,
followed by what `classifyRemainder` would return now, is what it would
have returned at once. -/
theorem shutdown_drains (hstopped : s.accepting = false) {calls : List SchedulerCall}
    (hclear : ∀ call ∈ calls, call ≠ .classifyRemainder) :
    ∃ es t, run Scheduler.exec s calls = some (es, t) ∧
      (∀ kind, es.flatMap (returned kind) = (s.queue kind).take (cycles es)) ∧
      ((∀ kind, t.queue kind = []) ↔ ∀ kind, (s.queue kind).length ≤ cycles es) ∧
      ∀ kind, es.flatMap (returned kind) ++ valuesOf kind t.classifyRemainder.1
        = valuesOf kind s.classifyRemainder.1 := by
  obtain ⟨es, t, hrun⟩ := exec_run_total s calls
  have hrec := recorded_of_run hrun
  have hinputs : ∀ f ∈ es, f.input ≠ .classifyRemainder := by
    intro f hf
    refine hclear f.input ?_
    rw [← map_input_of_run hrun]
    exact List.mem_map.mpr ⟨f, hf, rfl⟩
  have hreturned : ∀ kind, es.flatMap (returned kind) = (s.queue kind).take (cycles es) := by
    intro kind
    rw [← (run_moves kind hrec).released, ← pops_moveOf kind]
    exact releasedBy_of_popping (popping_of_stopped hrec hstopped hinputs).2
  have hleft : ∀ kind, t.queue kind = (s.queue kind).drop (cycles es) := by
    intro kind
    rw [← (run_moves kind hrec).after, ← pops_moveOf kind]
    exact queueAfter_of_popping (popping_of_stopped hrec hstopped hinputs).2
  refine ⟨es, t, hrun, hreturned, ?_, fun kind => ?_⟩
  · simp only [hleft, List.drop_eq_nil_iff]
  · rw [valuesOf_classifyRemainder, valuesOf_classifyRemainder, hreturned, hleft,
      List.take_append_drop]

end Stopped

theorem shutdown_drains_packets :
    ∃ es t, run Scheduler.exec twoPackets.stopAdmission
        [.takeCycle, .enqueuePacket "p3", .takeCycle] = some (es, t) ∧
      (∀ kind, es.flatMap (returned kind) = (twoPackets.stopAdmission.queue kind).take (cycles es)) ∧
      ((∀ kind, t.queue kind = []) ↔
        ∀ kind, (twoPackets.stopAdmission.queue kind).length ≤ cycles es) ∧
      ∀ kind, es.flatMap (returned kind) ++ valuesOf kind t.classifyRemainder.1
        = valuesOf kind twoPackets.stopAdmission.classifyRemainder.1 :=
  shutdown_drains rfl (by simp)

end Scheduler

end UpfPolicy
