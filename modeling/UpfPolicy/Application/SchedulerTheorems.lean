/-
UpfPolicy.Application.SchedulerTheorems — nothing is lost, nothing waits
behind another queue.

A call makes one `Move` on each of the three queues, and the moves of a
queue depend on no other queue: a `takeCycle` pops all three, a
`classifyRemainder` empties all three, an admitted value is pushed on its
own. `Moves` says so for one call (`exec_moves`) and `run_moves` for a run;
the queue laws of `Support.Queue` then give

  * `scheduler_conserves` — what each kind of work was given is what it has
    returned followed by what it still holds, in order; the queues stay
    within their capacities; admission is refused for the two stated
    reasons only; nothing is pending after `classifyRemainder`;
  * `served_in_turn` — an item with `n` before it is returned by exactly
    the next `takeCycle` but `n`.
-/
import UpfPolicy.Application.Scheduler
import UpfPolicy.Support.Queue
import UpfPolicy.Support.Runs

namespace UpfPolicy

open Support

namespace Scheduler

/-! ## One queue of three -/

@[simp] theorem queue_setQueue (s : Scheduler) (kind k : WorkKind) (queue : List String) :
    (s.setQueue kind queue).queue k = if k = kind then queue else s.queue k := by
  cases kind <;> cases k <;> rfl

@[simp] theorem limits_setQueue (s : Scheduler) (kind : WorkKind) (queue : List String) :
    (s.setQueue kind queue).limits = s.limits := by
  cases kind <;> rfl

@[simp] theorem accepting_setQueue (s : Scheduler) (kind : WorkKind) (queue : List String) :
    (s.setQueue kind queue).accepting = s.accepting := by
  cases kind <;> rfl

/-! ## Release -/

/-- The front of a queue as an item, if there is one. -/
def front (s : Scheduler) (kind : WorkKind) : List ScheduledItem :=
  ((s.queue kind).head?.map (ScheduledItem.mk kind)).toList

theorem takeFront_fst (s : Scheduler) (kind : WorkKind) : (s.takeFront kind).1 = s.front kind := by
  unfold takeFront front
  cases s.queue kind <;> rfl

theorem queue_takeFront (s : Scheduler) (kind k : WorkKind) :
    (s.takeFront kind).2.queue k = if k = kind then (s.queue k).drop 1 else s.queue k := by
  unfold takeFront
  cases hqueue : s.queue kind with
  | nil =>
    dsimp only
    split
    · rename_i hk
      rw [hk, hqueue]
      rfl
    · rfl
  | cons value rest =>
    simp only [queue_setQueue]
    split
    · rename_i hk
      rw [hk, hqueue]
      rfl
    · rfl

theorem takeFront_config (s : Scheduler) (kind : WorkKind) :
    (s.takeFront kind).2.limits = s.limits ∧ (s.takeFront kind).2.accepting = s.accepting := by
  unfold takeFront
  cases s.queue kind <;> simp

/-- **A cycle takes one item from each queue that has one**, in the order
control, packet, reconciliation. -/
theorem takeCycle_fst (s : Scheduler) :
    s.takeCycle.1 = s.front .control ++ s.front .packet ++ s.front .reconciliation := by
  simp only [takeCycle, takeFront_fst, front, queue_takeFront, reduceCtorEq, if_false]

theorem queue_takeCycle (s : Scheduler) (k : WorkKind) :
    s.takeCycle.2.queue k = (s.queue k).drop 1 := by
  simp only [takeCycle, queue_takeFront]
  cases k <;> rfl

theorem takeCycle_config (s : Scheduler) :
    s.takeCycle.2.limits = s.limits ∧ s.takeCycle.2.accepting = s.accepting := by
  simp only [takeCycle, takeFront_config, and_self]

theorem drain_eq (kind : WorkKind) (queue : List String) (result : List ScheduledItem) :
    drain kind queue result = (result ++ queue.map (ScheduledItem.mk kind), []) := by
  induction queue generalizing result with
  | nil => simp [drain]
  | cons value rest ih => rw [drain, ih]; simp

theorem classifyRemainder_eq (s : Scheduler) :
    s.classifyRemainder =
      (s.control.map (ScheduledItem.mk .control) ++ s.packet.map (ScheduledItem.mk .packet)
          ++ s.reconciliation.map (ScheduledItem.mk .reconciliation),
        { s with control := [], packet := [], reconciliation := [] }) := by
  simp only [classifyRemainder, drain_eq, List.nil_append]

/-- The values of one kind among released items. -/
def valuesOf (kind : WorkKind) (items : List ScheduledItem) : List String :=
  (items.filter (·.kind = kind)).map (·.value)

theorem valuesOf_append (kind : WorkKind) (items items' : List ScheduledItem) :
    valuesOf kind (items ++ items') = valuesOf kind items ++ valuesOf kind items' := by
  simp [valuesOf]

theorem valuesOf_map (kind k : WorkKind) (values : List String) :
    valuesOf kind (values.map (ScheduledItem.mk k)) = if k = kind then values else [] := by
  unfold valuesOf
  by_cases hk : k = kind
  · rw [if_pos hk, List.filter_eq_self.mpr (by simp [hk]), List.map_map]
    exact List.map_id' values
  · rw [if_neg hk, List.filter_eq_nil_iff.mpr (by simp [hk])]
    rfl

theorem front_eq_map (s : Scheduler) (kind : WorkKind) :
    s.front kind = ((s.queue kind).take 1).map (ScheduledItem.mk kind) := by
  unfold front
  cases s.queue kind <;> rfl

theorem valuesOf_takeCycle (s : Scheduler) (kind : WorkKind) :
    valuesOf kind s.takeCycle.1 = (s.queue kind).take 1 := by
  simp only [takeCycle_fst, valuesOf_append, front_eq_map, valuesOf_map]
  cases kind <;> simp

theorem valuesOf_classifyRemainder (s : Scheduler) (kind : WorkKind) :
    valuesOf kind s.classifyRemainder.1 = s.queue kind := by
  simp only [classifyRemainder_eq, valuesOf_append, valuesOf_map]
  cases kind <;> simp [queue]

/-! ## One call -/

/-- A call on a scheduler, as recorded. -/
abbrev SchedulerEvent := Event Scheduler SchedulerCall SchedulerReply

/-- The queue and the value an enqueue is about. -/
def enqueued : SchedulerCall → Option (WorkKind × String)
  | .enqueueControl value => some (.control, value)
  | .enqueuePacket value => some (.packet, value)
  | .enqueueReconciliation value => some (.reconciliation, value)
  | _ => none

/-- The value of this kind whose enqueue returned true, if the call is one. -/
def accepted (kind : WorkKind) (e : SchedulerEvent) : Option String :=
  match enqueued e.input, e.output with
  | some (k, value), .admitted true => if k = kind then some value else none
  | _, _ => none

/-- The values of this kind a call returned. -/
def returned (kind : WorkKind) (e : SchedulerEvent) : List String :=
  match e.output with
  | .items items => valuesOf kind items
  | _ => []

/-- What a call does to one of the queues. -/
def moveOf (kind : WorkKind) (e : SchedulerEvent) : Move String :=
  match e.input with
  | .takeCycle => .pop
  | .classifyRemainder => .clear
  | _ =>
    match accepted kind e with
    | some value => .push value
    | none => .stay

/-- The call does to the queue what its move says. -/
structure Moves (kind : WorkKind) (e : SchedulerEvent) : Prop where
  next : (moveOf kind e).next (e.before.queue kind) = e.after.queue kind
  released : (moveOf kind e).released (e.before.queue kind) = returned kind e
  pushed : (moveOf kind e).pushed = (accepted kind e).toList

section Exec

variable {s s' : Scheduler} {call : SchedulerCall} {reply : SchedulerReply}

/-- The three enqueue calls are `offer` at their kind. -/
theorem exec_enqueue {kind : WorkKind} {value : String} (h : enqueued call = some (kind, value)) :
    s.exec call = some (.admitted (s.offer kind value).1, (s.offer kind value).2) := by
  cases call <;> cases h <;> rfl

/-- **Admission**: a value is admitted exactly if admission was not stopped
and its queue is below capacity. -/
theorem offer_fst (s : Scheduler) (kind : WorkKind) (value : String) :
    (s.offer kind value).1 = true ↔
      s.accepting = true ∧ (s.queue kind).length < (s.limits.queueCapacity kind).toNat := by
  unfold offer enqueue
  by_cases haccepting : s.accepting = true
  · rw [if_pos haccepting]
    by_cases hfull : (s.queue kind).length ≥ (s.limits.queueCapacity kind).toNat
    · simp [hfull]
    · simp [hfull, haccepting, Nat.not_le.mp hfull]
  · simp [haccepting]

theorem queue_offer (s : Scheduler) (kind k : WorkKind) (value : String) :
    (s.offer kind value).2.queue k =
      if k = kind ∧ (s.offer kind value).1 = true then s.queue k ++ [value] else s.queue k := by
  unfold offer enqueue
  by_cases haccepting : s.accepting = true
  · rw [if_pos haccepting]
    by_cases hfull : (s.queue kind).length ≥ (s.limits.queueCapacity kind).toNat
    · by_cases hk : k = kind <;> simp [hfull, hk]
    · by_cases hk : k = kind <;> simp [hfull, hk]
  · rw [if_neg haccepting]
    simp

theorem offer_config (s : Scheduler) (kind : WorkKind) (value : String) :
    (s.offer kind value).2.limits = s.limits ∧ (s.offer kind value).2.accepting = s.accepting := by
  unfold offer
  split
  · simp
  · exact ⟨rfl, rfl⟩

/-- Everything a call can do. -/
inductive SchedulerOutcome (s : Scheduler) : SchedulerCall → SchedulerReply → Scheduler → Prop where
  | enqueue {call : SchedulerCall} {kind : WorkKind} {value : String}
      (hcall : enqueued call = some (kind, value)) :
      SchedulerOutcome s call (.admitted (s.offer kind value).1) (s.offer kind value).2
  | takeCycle : SchedulerOutcome s .takeCycle (.items s.takeCycle.1) s.takeCycle.2
  | stopAdmission : SchedulerOutcome s .stopAdmission .done s.stopAdmission
  | classifyRemainder :
      SchedulerOutcome s .classifyRemainder (.items s.classifyRemainder.1) s.classifyRemainder.2

theorem exec_outcome (h : s.exec call = some (reply, s')) : SchedulerOutcome s call reply s' := by
  cases call with
  | enqueueControl value =>
    cases h
    exact @SchedulerOutcome.enqueue s (.enqueueControl value) .control value rfl
  | enqueuePacket value =>
    cases h
    exact @SchedulerOutcome.enqueue s (.enqueuePacket value) .packet value rfl
  | enqueueReconciliation value =>
    cases h
    exact @SchedulerOutcome.enqueue s (.enqueueReconciliation value) .reconciliation value rfl
  | takeCycle => cases h; exact .takeCycle
  | stopAdmission => cases h; exact .stopAdmission
  | classifyRemainder => cases h; exact .classifyRemainder

/-- An enqueue is accepted for its own kind, when it returns true. -/
theorem accepted_enqueue {kind k : WorkKind} {value : String} {ok : Bool}
    (hcall : enqueued call = some (k, value)) :
    accepted kind ⟨s, call, .admitted ok, s'⟩
      = if k = kind ∧ ok = true then some value else none := by
  unfold accepted
  rw [hcall]
  cases ok <;> simp

/-- An enqueue pushes what is accepted. -/
theorem moveOf_enqueue {kind k : WorkKind} {value : String}
    (hcall : enqueued call = some (k, value)) :
    moveOf kind ⟨s, call, reply, s'⟩ =
      match accepted kind ⟨s, call, reply, s'⟩ with
      | some value => .push value
      | none => .stay := by
  cases call <;> cases hcall <;> rfl

/-- **A call moves each queue on its own.** -/
theorem exec_moves (kind : WorkKind) (h : s.exec call = some (reply, s')) :
    Moves kind ⟨s, call, reply, s'⟩ := by
  cases exec_outcome h with
  | @enqueue _ k value hcall =>
    have haccepted : accepted kind ⟨s, call, .admitted (s.offer k value).1, (s.offer k value).2⟩
        = if k = kind ∧ (s.offer k value).1 = true then some value else none :=
      accepted_enqueue hcall
    have hqueue := queue_offer s k kind value
    by_cases hpush : k = kind ∧ (s.offer k value).1 = true
    · rw [if_pos hpush] at haccepted
      rw [if_pos ⟨hpush.1.symm, hpush.2⟩] at hqueue
      refine ⟨?_, ?_, ?_⟩ <;> rw [moveOf_enqueue hcall, haccepted]
      · exact hqueue.symm
      · rfl
      · rfl
    · rw [if_neg hpush] at haccepted
      rw [if_neg fun h => hpush ⟨h.1.symm, h.2⟩] at hqueue
      refine ⟨?_, ?_, ?_⟩ <;> rw [moveOf_enqueue hcall, haccepted]
      · exact hqueue.symm
      · rfl
      · rfl
  | takeCycle =>
    exact ⟨(queue_takeCycle s kind).symm, (valuesOf_takeCycle s kind).symm, rfl⟩
  | stopAdmission => cases kind <;> exact ⟨rfl, rfl, rfl⟩
  | classifyRemainder =>
    refine ⟨?_, (valuesOf_classifyRemainder s kind).symm, rfl⟩
    simp only [classifyRemainder_eq]
    cases kind <;> rfl

/-- **No queue grows beyond its capacity.** -/
theorem exec_bounded (kind : WorkKind) (h : s.exec call = some (reply, s'))
    (hbound : (s.queue kind).length ≤ (s.limits.queueCapacity kind).toNat) :
    (s'.queue kind).length ≤ (s.limits.queueCapacity kind).toNat := by
  cases exec_outcome h with
  | @enqueue _ k value hcall =>
    rw [queue_offer]
    split
    · rename_i hpush
      obtain ⟨rfl, hok⟩ := hpush
      have hroom := ((offer_fst s kind value).mp hok).2
      rw [List.length_append, List.length_singleton]
      omega
    · exact hbound
  | takeCycle =>
    rw [queue_takeCycle, List.length_drop]
    omega
  | stopAdmission => cases kind <;> exact hbound
  | classifyRemainder =>
    simp only [classifyRemainder_eq]
    cases kind <;> exact Nat.zero_le _

theorem exec_limits (h : s.exec call = some (reply, s')) : s'.limits = s.limits := by
  cases exec_outcome h with
  | @enqueue _ k value hcall => exact (offer_config s k value).1
  | takeCycle => exact (takeCycle_config s).1
  | stopAdmission => rfl
  | classifyRemainder => simp only [classifyRemainder_eq]

/-- Only `stopAdmission` stops admission. -/
theorem exec_accepting (h : s.exec call = some (reply, s')) :
    s'.accepting = true ↔ s.accepting = true ∧ call ≠ .stopAdmission := by
  cases exec_outcome h with
  | @enqueue _ k value hcall =>
    rw [(offer_config s k value).2]
    cases call <;> cases hcall <;> simp
  | takeCycle => simp [(takeCycle_config s).2]
  | stopAdmission => simp [stopAdmission]
  | classifyRemainder => simp [classifyRemainder_eq]

/-- Nothing is pending after `classifyRemainder`. -/
theorem pending_classifyRemainder (s : Scheduler) : s.classifyRemainder.2.pending = 0 := by
  rw [classifyRemainder_eq]
  rfl

/-- Every call returns. -/
theorem exec_total (s : Scheduler) (call : SchedulerCall) :
    ∃ reply s', s.exec call = some (reply, s') := by
  cases call <;> exact ⟨_, _, rfl⟩

theorem exec_run_total (s : Scheduler) (calls : List SchedulerCall) :
    ∃ es t, run Scheduler.exec s calls = some (es, t) := by
  have htotal : ∀ (s : Scheduler) (call : SchedulerCall), True →
      ∃ reply t, s.exec call = some (reply, t) ∧ True := by
    intro s call _
    obtain ⟨reply, t, hexec⟩ := exec_total s call
    exact ⟨reply, t, hexec, trivial⟩
  exact run_total htotal calls trivial

end Exec

/-! ## Runs -/

section Runs

variable {s t : Scheduler} {es : List SchedulerEvent} {kind : WorkKind}

/-- A run moves a queue by the moves of its calls. -/
structure RunMoves (kind : WorkKind) (s t : Scheduler) (es : List SchedulerEvent) : Prop where
  after : queueAfter (s.queue kind) (es.map (moveOf kind)) = t.queue kind
  released : releasedBy (s.queue kind) (es.map (moveOf kind)) = es.flatMap (returned kind)
  pushed : (es.map (moveOf kind)).flatMap Move.pushed = es.filterMap (accepted kind)

theorem run_moves (kind : WorkKind) (h : Recorded Scheduler.exec s es t) : RunMoves kind s t es := by
  induction h with
  | nil => exact ⟨rfl, rfl, rfl⟩
  | @snoc es u t call reply hrec hexec ih =>
    have hmoves := exec_moves kind hexec
    refine ⟨?_, ?_, ?_⟩
    · rw [List.map_append, List.map_singleton, queueAfter_snoc, ih.after, hmoves.next]
    · rw [List.map_append, List.map_singleton, releasedBy_snoc, ih.released, ih.after,
        hmoves.released, List.flatMap_append, List.flatMap_singleton]
    · rw [List.map_append, List.flatMap_append, ih.pushed, List.filterMap_append]
      simp only [List.map_singleton, List.flatMap_singleton, hmoves.pushed, List.filterMap_cons,
        List.filterMap_nil]
      cases accepted kind ⟨u, call, reply, t⟩ <;> rfl

/-- What was returned, then what is queued, is what was accepted. -/
theorem RunMoves.conserves (h : RunMoves kind s t es) :
    es.flatMap (returned kind) ++ t.queue kind = s.queue kind ++ es.filterMap (accepted kind) := by
  rw [← h.released, ← h.after, ← h.pushed]
  exact releasedBy_append_queueAfter _ _

/-- The state of a run from a new scheduler. -/
structure FromNew (limits : CapacityLimits) (es : List SchedulerEvent) (s : Scheduler) : Prop where
  limits_eq : s.limits = limits
  bounded : ∀ kind, (s.queue kind).length ≤ (limits.queueCapacity kind).toNat
  accepting : s.accepting = true ↔ ∀ f ∈ es, f.input ≠ .stopAdmission

theorem fromNew_of_recorded {limits : CapacityLimits}
    (h : Recorded Scheduler.exec (new limits) es s) : FromNew limits es s := by
  induction h with
  | nil => exact ⟨rfl, fun kind => by cases kind <;> exact Nat.zero_le _, by simp [new]⟩
  | @snoc es u t call reply hrec hexec ih =>
    refine ⟨(exec_limits hexec).trans ih.limits_eq, fun kind => ?_, ?_⟩
    · have hbound := exec_bounded kind hexec
      rw [ih.limits_eq] at hbound
      exact hbound (ih.bounded kind)
    · rw [exec_accepting hexec, ih.accepting]
      simp [or_imp, forall_and]

/-- **Nothing is lost, duplicated or reordered, and nothing grows beyond
its bound.** For every sequence of calls on a new scheduler and each kind
of work: what was returned followed by what is queued is what was accepted,
in order; the queue is within its capacity; an enqueue returns true exactly
if admission was not stopped before and the queue was below capacity; and
nothing is pending after `classifyRemainder`. -/
theorem scheduler_conserves (limits : CapacityLimits) (calls : List SchedulerCall) :
    ∃ es s, run Scheduler.exec (new limits) calls = some (es, s) ∧
      (∀ kind, es.flatMap (returned kind) ++ s.queue kind = es.filterMap (accepted kind)) ∧
      (∀ kind, (s.queue kind).length ≤ (limits.queueCapacity kind).toNat) ∧
      (∀ pre e post kind value, es = pre ++ e :: post → enqueued e.input = some (kind, value) →
        ∃ ok, e.output = .admitted ok ∧
          (ok = true ↔ (∀ f ∈ pre, f.input ≠ .stopAdmission) ∧
            (e.before.queue kind).length < (limits.queueCapacity kind).toNat)) ∧
      (∀ e ∈ es, e.input = .classifyRemainder → e.after.pending = 0) := by
  obtain ⟨es, s, hrun⟩ := exec_run_total (new limits) calls
  have hrec := recorded_of_run hrun
  refine ⟨es, s, hrun, fun kind => ?_, (fromNew_of_recorded hrec).bounded, ?_, ?_⟩
  · have hconserves := (run_moves kind hrec).conserves
    have hempty : (new limits).queue kind = [] := by cases kind <;> rfl
    rwa [hempty, List.nil_append] at hconserves
  · intro pre e post kind value hes hcall
    obtain ⟨u, hpre, hpost⟩ := hrec.split hes
    obtain ⟨rfl, hexec, -⟩ := hpost.uncons
    have hnew := fromNew_of_recorded hpre
    rw [exec_enqueue hcall] at hexec
    refine ⟨_, (congrArg Prod.fst (Option.some.inj hexec)).symm, ?_⟩
    rw [offer_fst, hnew.accepting, hnew.limits_eq]
  · intro e he hcall
    obtain ⟨pre, post, hes⟩ := List.append_of_mem he
    obtain ⟨u, -, hpost⟩ := hrec.split hes
    obtain ⟨rfl, hexec, -⟩ := hpost.uncons
    rw [hcall] at hexec
    have hafter : e.before.classifyRemainder.2 = e.after :=
      congrArg Prod.snd (Option.some.inj hexec)
    rw [← hafter]
    exact pending_classifyRemainder _

/-! ## Fairness -/

/-- The number of `takeCycle` calls. -/
def cycles (es : List SchedulerEvent) : Nat :=
  es.countP fun e => match e.input with
    | .takeCycle => true
    | _ => false

theorem pops_moveOf (kind : WorkKind) (es : List SchedulerEvent) :
    pops (es.map (moveOf kind)) = cycles es := by
  rw [pops, List.countP_map, cycles]
  refine List.countP_congr fun e _ => ?_
  unfold Function.comp moveOf
  cases accepted kind e <;> cases e.input <;> exact Iff.rfl

theorem moveOf_ne_clear {e : SchedulerEvent} (h : e.input ≠ .classifyRemainder) :
    moveOf kind e ≠ .clear := by
  unfold moveOf
  split
  · exact nofun
  · exact absurd ‹_› h
  · split <;> exact nofun

/-- The call returns the item at place `n` of the queue the run started
from: the `n` before it were returned by the calls `pre`, and it is the
item of its kind that the call returns. -/
structure ReturnsItem (kind : WorkKind) (n : Nat) (value : String) (pre : List SchedulerEvent)
    (e : SchedulerEvent) : Prop where
  before : (pre.flatMap (returned kind)).length = n
  returned : returned kind e = [value]

section Served

variable {pre post : List SchedulerEvent} {e : SchedulerEvent} {n : Nat} {value : String}

/-- An item waits one place further to the front after each cycle. -/
theorem waits (h : Recorded Scheduler.exec s es t) (hclear : ∀ f ∈ es, f.input ≠ .classifyRemainder)
    (hitem : (s.queue kind)[n]? = some value) (hle : cycles es ≤ n) :
    (t.queue kind)[n - cycles es]? = some value := by
  have hmoves := run_moves kind h
  have hn : n < (s.queue kind).length := (List.getElem?_eq_some_iff.mp hitem).1
  have hpops := pops_moveOf kind es
  have hstay : ∀ m ∈ es.map (moveOf kind), m ≠ .clear := by
    intro m hm
    obtain ⟨f, hf, rfl⟩ := List.mem_map.mp hm
    exact moveOf_ne_clear (hclear f hf)
  rw [← hmoves.after, ← hpops, getElem?_queueAfter hstay hn (by omega), hitem]

/-- **An item is returned by exactly the `takeCycle` that finds it in
front.** -/
theorem returnsItem_iff (h : Recorded Scheduler.exec s es t)
    (hclear : ∀ f ∈ es, f.input ≠ .classifyRemainder) (hitem : (s.queue kind)[n]? = some value)
    (hes : es = pre ++ e :: post) (hcall : e.input = .takeCycle) :
    ReturnsItem kind n value pre e ↔ cycles pre = n := by
  obtain ⟨u, hpre, hpost⟩ := h.split hes
  obtain ⟨rfl, hexec, -⟩ := hpost.uncons
  have hclear' : ∀ f ∈ pre, f.input ≠ .classifyRemainder := by
    intro f hf
    exact hclear f (hes ▸ List.mem_append_left _ hf)
  have hstay : ∀ m ∈ pre.map (moveOf kind), m ≠ .clear := by
    intro m hm
    obtain ⟨f, hf, rfl⟩ := List.mem_map.mp hm
    exact moveOf_ne_clear (hclear' f hf)
  have hn : n < (s.queue kind).length := (List.getElem?_eq_some_iff.mp hitem).1
  have hlength : (pre.flatMap (returned kind)).length = n ↔ cycles pre = n := by
    rw [← (run_moves kind hpre).released, ← pops_moveOf kind]
    exact length_releasedBy_eq_iff hstay hn
  refine ⟨fun hreturns => hlength.mp hreturns.before, fun hcycles => ⟨hlength.mpr hcycles, ?_⟩⟩
  -- the item is in front when the call is made
  have hfront := waits hpre hclear' hitem (Nat.le_of_eq hcycles)
  rw [hcycles, Nat.sub_self] at hfront
  have hreleased := (exec_moves kind hexec).released
  rw [show moveOf kind ⟨e.before, e.input, e.output, e.after⟩ = .pop by rw [moveOf, hcall]]
    at hreleased
  show returned kind ⟨e.before, e.input, e.output, e.after⟩ = [value]
  rw [← hreleased]
  cases hqueue : e.before.queue kind with
  | nil => rw [hqueue] at hfront; cases hfront
  | cons v rest => rw [hqueue] at hfront; cases hfront; rfl

end Served

/-- **Fairness.** In every state and for every continuation without
`classifyRemainder`, an item with `n` before it in its own queue moves one
place to the front with each `takeCycle` and is returned by exactly the
`(n + 1)`-th, whatever the other queues hold or are given; and each
`takeCycle` returns one item for each queue that has one, in the order
control, packet, reconciliation. -/
theorem served_in_turn (s : Scheduler) {calls : List SchedulerCall}
    (hclear : ∀ call ∈ calls, call ≠ .classifyRemainder) :
    ∃ es t, run Scheduler.exec s calls = some (es, t) ∧
    (∀ kind n value, (s.queue kind)[n]? = some value →
      (cycles es ≤ n → (t.queue kind)[n - cycles es]? = some value) ∧
      ∀ pre e post, es = pre ++ e :: post → e.input = .takeCycle →
        (ReturnsItem kind n value pre e ↔ cycles pre = n)) ∧
    ∀ e ∈ es, e.input = .takeCycle →
      e.output = .items (e.before.front .control ++ e.before.front .packet
        ++ e.before.front .reconciliation) := by
  obtain ⟨es, t, hrun⟩ := exec_run_total s calls
  have hrec := recorded_of_run hrun
  have hinputs : ∀ f ∈ es, f.input ≠ .classifyRemainder := by
    intro f hf
    refine hclear f.input ?_
    rw [← map_input_of_run hrun]
    exact List.mem_map.mpr ⟨f, hf, rfl⟩
  refine ⟨es, t, hrun, fun kind n value hitem => ?_, ?_⟩
  · exact ⟨waits hrec hinputs hitem, fun pre e post hes hcall =>
      returnsItem_iff hrec hinputs hitem hes hcall⟩
  · intro e he hcall
    obtain ⟨pre, post, hes⟩ := List.append_of_mem he
    obtain ⟨u, -, hpost⟩ := hrec.split hes
    obtain ⟨rfl, hexec, -⟩ := hpost.uncons
    rw [hcall] at hexec
    have houtput : .items e.before.takeCycle.1 = e.output :=
      congrArg Prod.fst (Option.some.inj hexec)
    rw [← houtput, takeCycle_fst]

end Runs

/-- A new scheduler with two packets in its queue. -/
def twoPackets : Scheduler := (((new {}).enqueuePacket "p1").2.enqueuePacket "p2").2

theorem served_in_turn_packets :
    ∃ es t, run Scheduler.exec twoPackets
        [.enqueueControl "c1", .takeCycle, .stopAdmission, .takeCycle] = some (es, t) ∧
      ∀ pre e post, es = pre ++ e :: post → e.input = .takeCycle →
        (ReturnsItem .packet 1 "p2" pre e ↔ cycles pre = 1) := by
  have hclear : ∀ call ∈ [SchedulerCall.enqueueControl "c1", .takeCycle, .stopAdmission, .takeCycle],
      call ≠ .classifyRemainder := by simp
  obtain ⟨es, t, hrun, hitems, -⟩ := served_in_turn twoPackets hclear
  exact ⟨es, t, hrun, (hitems .packet 1 "p2" rfl).2⟩

end Scheduler

end UpfPolicy
