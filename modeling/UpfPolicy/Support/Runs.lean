/-
UpfPolicy.Support.Runs — recorded runs of a deterministic machine.

A machine is a function `step s i` that answers one input with an output
and the next state, or is undefined. `run` feeds it a list of inputs and
records one `Event` for each: the state before, the input, the output and
the state after. Statements about histories are statements about the list
of events.

`Recorded step s es t` is the same run as a relation that grows at its
end, which is how invariants over a history are proved: one case for the
start and one for the next event. The rules are

  * `Recorded.invariant` — what the start satisfies and every step keeps
    holds at the end, and at both ends of every event;
  * `run_total` — a machine defined wherever its invariant holds has a run
    for every list of inputs;
  * `Recorded.split` — a run can be cut before any event;
  * `forall₂_flatMap_iff` — lists gathered from the events correspond when
    each event's contributions do;
  * `Driven.event` — a component of a machine is driven by what the events of
    a run hand to it;
  * `Recorded.posted` — a view of the state that can be kept by posting each
    input and its output is kept by posting the journal of a run;
  * `run_simulation` — two machines that keep a relation step by step keep
    it over runs, with related events;
  * `run_lockstep` — the same of two given runs, with what is known of their
    events;
  * `run_filter` — steps that only keep the relation can be left out.
-/
import Mathlib.Data.List.Sort

namespace UpfPolicy.Support

/-- One step of a run, as recorded. -/
structure Event (σ ι ο : Type) where
  before : σ
  input : ι
  output : ο
  after : σ

variable {σ ι ο : Type} {step : σ → ι → Option (ο × σ)}

/-- Run a machine over a list of inputs, recording every step. -/
def run (step : σ → ι → Option (ο × σ)) : σ → List ι → Option (List (Event σ ι ο) × σ)
  | s, [] => some ([], s)
  | s, i :: rest =>
    match step s i with
    | none => none
    | some (o, t) => (run step t rest).map fun (es, u) => (⟨s, i, o, t⟩ :: es, u)

/-- A state some list of inputs leads to. -/
def Reachable (step : σ → ι → Option (ο × σ)) (start s : σ) : Prop :=
  ∃ inputs es, run step start inputs = some (es, s)

/-- A recorded run from `start`, seen as growing at its end. -/
inductive Recorded (step : σ → ι → Option (ο × σ)) (start : σ) :
    List (Event σ ι ο) → σ → Prop where
  | nil : Recorded step start [] start
  | snoc {es : List (Event σ ι ο)} {s t : σ} {i : ι} {o : ο} :
      Recorded step start es s → step s i = some (o, t) →
      Recorded step start (es ++ [⟨s, i, o, t⟩]) t

namespace Recorded

/-- A run may also be extended at its start. -/
theorem cons {s t u : σ} {i : ι} {o : ο} {es : List (Event σ ι ο)}
    (hstep : step s i = some (o, t)) (h : Recorded step t es u) :
    Recorded step s (⟨s, i, o, t⟩ :: es) u := by
  induction h with
  | nil => exact snoc nil hstep
  | snoc _ hnext ih => exact snoc ih hnext

/-- A run can be cut before any event. -/
theorem split {start t : σ} {es : List (Event σ ι ο)} (h : Recorded step start es t) :
    ∀ {pre post : List (Event σ ι ο)}, es = pre ++ post →
      ∃ s, Recorded step start pre s ∧ Recorded step s post t := by
  induction h with
  | nil =>
    intro pre post heq
    obtain ⟨rfl, rfl⟩ := List.append_eq_nil_iff.mp heq.symm
    exact ⟨start, nil, nil⟩
  | @snoc es s t i o hrec hstep ih =>
    intro pre post heq
    rcases List.eq_nil_or_concat post with rfl | ⟨mid, e, rfl⟩
    · refine ⟨t, ?_, nil⟩
      rw [List.append_nil] at heq
      exact heq ▸ snoc hrec hstep
    · rw [List.concat_eq_append, ← List.append_assoc] at heq
      rw [List.concat_eq_append]
      obtain ⟨hmid, hlast⟩ := List.append_inj' heq rfl
      obtain ⟨s', hpre, hpost⟩ := ih hmid
      cases hlast
      exact ⟨s', hpre, snoc hpost hstep⟩

/-- A run without events goes nowhere. -/
theorem eq_of_nil {start t : σ} {es : List (Event σ ι ο)} (h : Recorded step start es t)
    (hes : es = []) : t = start := by
  cases h with
  | nil => rfl
  | snoc _ _ => simp at hes

/-- A run that starts with an event starts with its step. -/
theorem uncons {start t : σ} {e : Event σ ι ο} {es : List (Event σ ι ο)}
    (h : Recorded step start (e :: es) t) :
    e.before = start ∧ step start e.input = some (e.output, e.after) ∧
      Recorded step e.after es t := by
  obtain ⟨s, hfirst, hrest⟩ := h.split (show e :: es = [e] ++ es from rfl)
  generalize hes : [e] = one at hfirst
  cases hfirst with
  | nil => simp at hes
  | @snoc es' s₀ _ i o hnil hstep =>
    obtain ⟨hnone, hlast⟩ := List.append_inj' ((List.nil_append [e]).trans hes) rfl
    cases hlast
    cases hnil.eq_of_nil hnone.symm
    exact ⟨rfl, hstep, hrest⟩

/-- **Invariant rule**: what holds at the start and is kept by every step
holds at the end. -/
theorem invariant {Inv : σ → Prop} {start t : σ} {es : List (Event σ ι ο)}
    (hstart : Inv start)
    (hstep : ∀ s i o t, Inv s → step s i = some (o, t) → Inv t)
    (h : Recorded step start es t) : Inv t := by
  induction h with
  | nil => exact hstart
  | snoc _ hnext ih => exact hstep _ _ _ _ ih hnext

/-- Every event of a run is a step of the machine from a state where the
invariant holds. -/
theorem event {Inv : σ → Prop} {start t : σ} {es : List (Event σ ι ο)}
    (hstart : Inv start)
    (hstep : ∀ s i o t, Inv s → step s i = some (o, t) → Inv t)
    (h : Recorded step start es t) {e : Event σ ι ο} (he : e ∈ es) :
    Inv e.before ∧ step e.before e.input = some (e.output, e.after) := by
  obtain ⟨pre, post, rfl⟩ := List.append_of_mem he
  obtain ⟨s, hpre, hpost⟩ := h.split rfl
  obtain ⟨rfl, hs, -⟩ := hpost.uncons
  exact ⟨hpre.invariant hstart hstep, hs⟩

end Recorded

theorem run_cons (s : σ) (i : ι) (rest : List ι) {o : ο} {t : σ} (h : step s i = some (o, t)) :
    run step s (i :: rest) = (run step t rest).map fun (es, u) => (⟨s, i, o, t⟩ :: es, u) := by
  rw [run, h]

/-- **Inversion**: a run is its first step and the run of the rest. -/
theorem run_cons_eq_some {s : σ} {i : ι} {rest : List ι} {es : List (Event σ ι ο)} {t : σ}
    (h : run step s (i :: rest) = some (es, t)) :
    ∃ o u es', step s i = some (o, u) ∧ run step u rest = some (es', t) ∧
      es = ⟨s, i, o, u⟩ :: es' := by
  cases hs : step s i with
  | none => simp [run, hs] at h
  | some out =>
    obtain ⟨o, u⟩ := out
    rw [run_cons s i rest hs] at h
    obtain ⟨⟨es', v⟩, hrest, heq⟩ := Option.map_eq_some_iff.mp h
    cases heq
    exact ⟨o, u, es', rfl, hrest, rfl⟩

/-- A run that is defined is recorded. -/
theorem recorded_of_run {s : σ} {inputs : List ι} {es : List (Event σ ι ο)} {t : σ}
    (h : run step s inputs = some (es, t)) : Recorded step s es t := by
  induction inputs generalizing s es with
  | nil => cases h; exact .nil
  | cons i rest ih =>
    obtain ⟨o, u, es', hs, hrest, rfl⟩ := run_cons_eq_some h
    exact Recorded.cons hs (ih hrest)

/-- The inputs of a recorded run are the inputs that were given. -/
theorem map_input_of_run {s : σ} {inputs : List ι} {es : List (Event σ ι ο)} {t : σ}
    (h : run step s inputs = some (es, t)) : es.map (·.input) = inputs := by
  induction inputs generalizing s es with
  | nil => cases h; rfl
  | cons i rest ih =>
    obtain ⟨o, u, es', -, hrest, rfl⟩ := run_cons_eq_some h
    rw [List.map_cons, ih hrest]

/-- **Totality rule**: a machine that is defined wherever its invariant
holds, and keeps it, has a run for every list of inputs. -/
theorem run_total {Inv : σ → Prop}
    (hdef : ∀ s i, Inv s → ∃ o t, step s i = some (o, t) ∧ Inv t)
    (inputs : List ι) {s : σ} (hs : Inv s) : ∃ es t, run step s inputs = some (es, t) := by
  induction inputs generalizing s with
  | nil => exact ⟨[], s, rfl⟩
  | cons i rest ih =>
    obtain ⟨o, t, hstep, ht⟩ := hdef s i hs
    obtain ⟨es, u, hrest⟩ := ih ht
    exact ⟨⟨s, i, o, t⟩ :: es, u, by rw [run_cons s i rest hstep, hrest]; rfl⟩

theorem Reachable.invariant {Inv : σ → Prop} {start s : σ} (h : Reachable step start s)
    (hstart : Inv start) (hstep : ∀ s i o t, Inv s → step s i = some (o, t) → Inv t) : Inv s := by
  obtain ⟨inputs, es, hrun⟩ := h
  exact (recorded_of_run hrun).invariant hstart hstep

/-- A run that is defined reaches its last state. -/
theorem reachable_of_isSome {start : σ} {inputs : List ι} (h : (run step start inputs).isSome) :
    Reachable step start ((run step start inputs).get h).2 :=
  ⟨inputs, ((run step start inputs).get h).1, by simp⟩

/-- A list is cut at any of its elements. -/
theorem take_append_get_cons_drop {α : Type} (es : List α) (i : Fin es.length) :
    es = es.take i ++ es.get i :: es.drop (i + 1) := by
  rw [List.get_eq_getElem, List.getElem_cons_drop, List.take_append_drop]

/-! ## What the events of a run contribute -/

section Contributions

variable {α β γ : Type} {R : β → γ → Prop}

/-- What holds of the events so far and of the next one. -/
theorem forall_mem_snoc {P : α → Prop} {es : List α} {e : α} (hes : ∀ f ∈ es, P f) (he : P e) :
    ∀ f ∈ es ++ [e], P f :=
  List.forall_mem_append.mpr ⟨hes, List.forall_mem_singleton.mpr he⟩

theorem forall₂_append_iff {xs ys : List β} {xs' ys' : List γ} (hlen : xs.length = xs'.length) :
    List.Forall₂ R (xs ++ ys) (xs' ++ ys') ↔ List.Forall₂ R xs xs' ∧ List.Forall₂ R ys ys' := by
  induction xs generalizing xs' with
  | nil => simp [List.length_eq_zero_iff.mp hlen.symm]
  | cons x xs ih =>
    cases xs' with
    | nil => cases hlen
    | cons x' xs' => simp [ih (Nat.succ.inj hlen), and_assoc]

/-- Two lists put together event by event correspond when every event's
contributions do. -/
theorem forall₂_flatMap_iff {f : α → List β} {g : α → List γ} {es : List α}
    (hlen : ∀ e ∈ es, (f e).length = (g e).length) :
    List.Forall₂ R (es.flatMap f) (es.flatMap g) ↔ ∀ e ∈ es, List.Forall₂ R (f e) (g e) := by
  induction es with
  | nil => simp
  | cons e es ih =>
    rw [List.flatMap_cons, List.flatMap_cons, forall₂_append_iff (hlen e List.mem_cons_self),
      ih fun e' he => hlen e' (List.mem_cons_of_mem e he), List.forall_mem_cons]

end Contributions

/-! ## Components -/

/-- A machine is driven from `start` by these inputs and gives these
outputs. -/
inductive Driven (step : σ → ι → Option (ο × σ)) (start : σ) : List ι → List ο → σ → Prop where
  | nil : Driven step start [] [] start
  | snoc {is : List ι} {os : List ο} {s t : σ} {i : ι} {o : ο} :
      Driven step start is os s → step s i = some (o, t) →
      Driven step start (is ++ [i]) (os ++ [o]) t

/-- **Component rule**: each event of a run drives the component by one
input or by none. -/
theorem Driven.event {α : Type} {start s t : σ} {f : α → Option ι} {g : α → Option ο}
    {es : List α} {e : α} (h : Driven step start (es.filterMap f) (es.filterMap g) s)
    (he : f e = none ∧ g e = none ∧ t = s ∨
      ∃ i o, f e = some i ∧ g e = some o ∧ step s i = some (o, t)) :
    Driven step start ((es ++ [e]).filterMap f) ((es ++ [e]).filterMap g) t := by
  rw [List.filterMap_append, List.filterMap_append]
  obtain ⟨hf, hg, rfl⟩ | ⟨i, o, hf, hg, hstep⟩ := he
  · simpa [hf, hg] using h
  · simpa [hf, hg] using h.snoc hstep

/-! ## Journals -/

/-- The inputs of a run with their outputs. -/
def journal (es : List (Event σ ι ο)) : List (ι × ο) := es.map fun e => (e.input, e.output)

/-- **Posting rule**: a view that each step posts is posted by a run. -/
theorem Recorded.posted {β : Type} {Inv : σ → Prop} {view : σ → β} {post : β → ι × ο → Option β}
    {start t : σ} {es : List (Event σ ι ο)} (hstart : Inv start)
    (hstep : ∀ s i o t, Inv s → step s i = some (o, t) → Inv t)
    (hpost : ∀ s i o t, Inv s → step s i = some (o, t) → post (view s) (i, o) = some (view t))
    (h : Recorded step start es t) : (journal es).foldlM post (view start) = some (view t) := by
  induction h with
  | nil => rfl
  | @snoc es s t i o hrec hnext ih =>
    rw [journal, List.map_append, List.foldlM_append, ← journal, ih]
    have hlast := hpost s i o t (hrec.invariant hstart hstep) hnext
    simp [hlast]

/-! ## Two runs -/

/-- Two events whose inputs, outputs and following states are related. -/
structure EventsRelated {ι' ο' σ' : Type} (RI : ι → ι' → Prop) (RO : ο → ο' → Prop)
    (RS : σ → σ' → Prop) (e : Event σ ι ο) (e' : Event σ' ι' ο') : Prop where
  input : RI e.input e'.input
  output : RO e.output e'.output
  after : RS e.after e'.after

/-- **Simulation rule**: if related states answer related inputs with
related outputs and states, two runs on related inputs have related
events throughout. -/
theorem run_simulation {σ' ι' ο' : Type} {step' : σ' → ι' → Option (ο' × σ')}
    {RI : ι → ι' → Prop} {RO : ο → ο' → Prop} {RS : σ → σ' → Prop}
    (hstep : ∀ s s' i i', RS s s' → RI i i' → ∀ o t, step s i = some (o, t) →
      ∃ o' t', step' s' i' = some (o', t') ∧ RO o o' ∧ RS t t')
    {inputs : List ι} {inputs' : List ι'} (hin : List.Forall₂ RI inputs inputs')
    {s : σ} {s' : σ'} (hs : RS s s') {es : List (Event σ ι ο)} {t : σ}
    (hrun : run step s inputs = some (es, t)) :
    ∃ es' t', run step' s' inputs' = some (es', t') ∧
      List.Forall₂ (EventsRelated RI RO RS) es es' ∧ RS t t' := by
  induction hin generalizing s s' es t with
  | nil => cases hrun; exact ⟨[], s', rfl, .nil, hs⟩
  | @cons i i' rest rest' hi _ ih =>
    obtain ⟨o, u, es₁, hsi, hrest, rfl⟩ := run_cons_eq_some hrun
    obtain ⟨o', u', hsi', ho, hu⟩ := hstep s s' i i' hs hi o u hsi
    obtain ⟨es', t', hrun', hes, ht⟩ := ih hu hrest
    refine ⟨⟨s', i', o', u'⟩ :: es', t', ?_, .cons ⟨hi, ho, hu⟩ hes, ht⟩
    rw [run_cons s' i' rest' hsi', hrun']
    rfl

/-- **Lockstep rule**: two runs on related inputs have related events, if
every pair of steps keeps the relation. -/
theorem run_lockstep {σ' ι' ο' : Type} {step' : σ' → ι' → Option (ο' × σ')}
    {RI : ι → ι' → Prop} {RO : ο → ο' → Prop} {RS : σ → σ' → Prop} {Fair : Event σ ι ο → Prop}
    {Fair' : Event σ' ι' ο' → Prop}
    (hstep : ∀ s s' i i' o o' t t', RS s s' → RI i i' → step s i = some (o, t) →
      step' s' i' = some (o', t') → Fair ⟨s, i, o, t⟩ → Fair' ⟨s', i', o', t'⟩ → RO o o' ∧ RS t t')
    {inputs : List ι} {inputs' : List ι'} (hin : List.Forall₂ RI inputs inputs')
    {s : σ} {s' : σ'} (hs : RS s s') {es : List (Event σ ι ο)} {t : σ}
    (hrun : run step s inputs = some (es, t)) {es' : List (Event σ' ι' ο')} {t' : σ'}
    (hrun' : run step' s' inputs' = some (es', t')) (hfair : ∀ e ∈ es, Fair e)
    (hfair' : ∀ e ∈ es', Fair' e) : List.Forall₂ (EventsRelated RI RO RS) es es' := by
  induction hin generalizing s s' es es' with
  | nil =>
    cases hrun
    cases hrun'
    exact .nil
  | @cons i i' rest rest' hi _ ih =>
    obtain ⟨o, u, es₁, hsi, hrest, rfl⟩ := run_cons_eq_some hrun
    obtain ⟨o', u', es₁', hsi', hrest', rfl⟩ := run_cons_eq_some hrun'
    obtain ⟨hfirst, hothers⟩ := List.forall_mem_cons.mp hfair
    obtain ⟨hfirst', hothers'⟩ := List.forall_mem_cons.mp hfair'
    obtain ⟨ho, hu⟩ := hstep s s' i i' o o' u u' hs hi hsi hsi' hfirst hfirst'
    exact .cons ⟨hi, ho, hu⟩ (ih hu hrest hrest' hothers hothers')

/-- **Omission rule**: if the steps that are kept can be answered alike, and
the other steps only keep the relation, the run on the kept inputs has the
journal of the kept steps. -/
theorem run_filter {kept : Event σ ι ο → Bool} {Fair : Event σ ι ο → Prop} {R : σ → σ → Prop}
    (hkept : ∀ s s' i o t, R s s' → step s i = some (o, t) → Fair ⟨s, i, o, t⟩ →
      kept ⟨s, i, o, t⟩ = true → ∃ t', step s' i = some (o, t') ∧ R t t')
    (hleft : ∀ s s' i o t, R s s' → step s i = some (o, t) → Fair ⟨s, i, o, t⟩ →
      kept ⟨s, i, o, t⟩ = false → R t s')
    {inputs : List ι} {s s' : σ} (hs : R s s') {es : List (Event σ ι ο)} {t : σ}
    (hrun : run step s inputs = some (es, t)) (hfair : ∀ e ∈ es, Fair e) :
    ∃ es' t', run step s' ((es.filter kept).map (·.input)) = some (es', t') ∧
      journal es' = journal (es.filter kept) ∧ R t t' := by
  induction inputs generalizing s s' es with
  | nil =>
    cases hrun
    exact ⟨[], s', rfl, rfl, hs⟩
  | cons i inputs ih =>
    obtain ⟨o, u, rest, hstep, hrest, rfl⟩ := run_cons_eq_some hrun
    obtain ⟨hfirst, hothers⟩ := List.forall_mem_cons.mp hfair
    cases hi : kept ⟨s, i, o, u⟩ with
    | true =>
      obtain ⟨u', hstep', hu⟩ := hkept _ _ _ _ _ hs hstep hfirst hi
      obtain ⟨es', t', hrun', hjournal, ht⟩ := ih hu hrest hothers
      refine ⟨⟨s', i, o, u'⟩ :: es', t', ?_, ?_, ht⟩
      · rw [List.filter_cons_of_pos hi, List.map_cons, run_cons s' i _ hstep', hrun']
        rfl
      · rw [List.filter_cons_of_pos hi, journal, journal, List.map_cons, List.map_cons, ← journal,
          ← journal, hjournal]
    | false =>
      obtain ⟨es', t', hrun', hjournal, ht⟩ :=
        ih (hleft _ _ _ _ _ hs hstep hfirst hi) hrest hothers
      refine ⟨es', t', ?_, ?_, ht⟩
      · rw [List.filter_cons_of_neg (by simp [hi]), hrun']
      · rw [List.filter_cons_of_neg (by simp [hi]), hjournal]

/-- The inputs that are kept, for a choice by input. -/
theorem map_input_filter {kept : ι → Bool} {s t : σ} {inputs : List ι} {es : List (Event σ ι ο)}
    (hrun : run step s inputs = some (es, t)) :
    (es.filter fun e => kept e.input).map (·.input) = inputs.filter kept := by
  rw [← map_input_of_run hrun, List.filter_map]
  rfl

end UpfPolicy.Support
