/-
UpfPolicy.Support.Tally — counting a log of items, with a one-shot alarm.

`measure` says which items of a log count, with their size and the
threshold the running total is compared with at that item. A `Tally` counts
the items, sums their sizes and remembers whether the total ever reached
the threshold of an item. `Tallied` says that a tally is the result of
walking a log.

  * `Tallied.count_eq` and `Tallied.total_eq` — the tally is exact;
  * `Tallied.fired_iff` — the alarm is on exactly when some item crossed;
  * `FirstCrossing.unique` — there is one item to blame for it.
-/
import Mathlib.Algebra.Order.Ring.Nat
import Mathlib.Data.List.Sort

namespace UpfPolicy.Support

variable {α : Type} (measure : α → Option (Nat × Nat))

/-- The sizes of the items that count. -/
def counted (log : List α) : List Nat := log.filterMap fun e => (measure e).map (·.1)

/-- With this item the total reaches the item's threshold. -/
def CrossesAt (before : List α) (e : α) : Prop :=
  ∃ size threshold, measure e = some (size, threshold) ∧
    threshold ≤ (counted measure before).sum + size

/-- The item crosses and none before it did. -/
structure FirstCrossing (before : List α) (e : α) : Prop where
  crosses : CrossesAt measure before e
  first : ∀ pre e' post, before = pre ++ e' :: post → ¬ CrossesAt measure pre e'

structure Tally where
  count : Nat := 0
  total : Nat := 0
  fired : Bool := false

/-- The tally of a log. -/
inductive Tallied : List α → Tally → Prop where
  | nil : Tallied [] {}
  | skip {log : List α} {t : Tally} {e : α} :
      Tallied log t → measure e = none → Tallied (log ++ [e]) t
  | count {log : List α} {t : Tally} {e : α} {size threshold : Nat} :
      Tallied log t → measure e = some (size, threshold) →
      Tallied (log ++ [e])
        ⟨t.count + 1, t.total + size, t.fired || decide (threshold ≤ t.total + size)⟩

variable {measure}

theorem counted_snoc_of_none {log : List α} {e : α} (h : measure e = none) :
    counted measure (log ++ [e]) = counted measure log := by
  simp [counted, h]

theorem counted_snoc_of_some {log : List α} {e : α} {size threshold : Nat}
    (h : measure e = some (size, threshold)) :
    counted measure (log ++ [e]) = counted measure log ++ [size] := by
  simp [counted, h]

/-- A split of a log at an item is a split of its front or at its end. -/
theorem snoc_eq_append_cons {log pre post : List α} {e x : α} :
    log ++ [e] = pre ++ x :: post ↔
      (post = [] ∧ pre = log ∧ x = e) ∨ ∃ mid, post = mid ++ [e] ∧ log = pre ++ x :: mid := by
  constructor
  · intro h
    rcases List.eq_nil_or_concat post with rfl | ⟨mid, last, rfl⟩
    · obtain ⟨hlog, hlast⟩ := List.append_inj' h rfl
      cases hlast
      exact Or.inl ⟨rfl, hlog.symm, rfl⟩
    · rw [List.concat_eq_append, ← List.cons_append, ← List.append_assoc] at h
      obtain ⟨hlog, hlast⟩ := List.append_inj' h rfl
      cases hlast
      exact Or.inr ⟨mid, List.concat_eq_append, hlog⟩
  · rintro (⟨rfl, rfl, rfl⟩ | ⟨mid, rfl, rfl⟩)
    · rfl
    · simp

namespace Tallied

theorem count_eq {log : List α} {t : Tally} (h : Tallied measure log t) :
    t.count = (counted measure log).length := by
  induction h with
  | nil => rfl
  | skip _ hnone ih => rw [counted_snoc_of_none hnone, ih]
  | count _ hsome ih => rw [counted_snoc_of_some hsome, List.length_append, ih]; rfl

theorem total_eq {log : List α} {t : Tally} (h : Tallied measure log t) :
    t.total = (counted measure log).sum := by
  induction h with
  | nil => rfl
  | skip _ hnone ih => rw [counted_snoc_of_none hnone, ih]
  | count _ hsome ih => rw [counted_snoc_of_some hsome, List.sum_append, ih, List.sum_singleton]

/-- The alarm is on exactly when some item crossed its threshold. -/
theorem fired_iff {log : List α} {t : Tally} (h : Tallied measure log t) :
    t.fired = true ↔ ∃ pre e post, log = pre ++ e :: post ∧ CrossesAt measure pre e := by
  induction h with
  | nil => simp
  | @skip log t e _ hnone ih =>
    rw [ih]
    constructor
    · rintro ⟨pre, x, post, rfl, hx⟩
      exact ⟨pre, x, post ++ [e], by simp, hx⟩
    · rintro ⟨pre, x, post, hsplit, hx⟩
      rcases snoc_eq_append_cons.mp hsplit with ⟨-, -, rfl⟩ | ⟨mid, -, hlog⟩
      · obtain ⟨_, _, hsome, -⟩ := hx
        rw [hnone] at hsome
        cases hsome
      · exact ⟨pre, x, mid, hlog, hx⟩
  | @count log t e size threshold htallied hsome ih =>
    rw [Bool.or_eq_true, ih, decide_eq_true_eq]
    constructor
    · rintro (⟨pre, x, post, rfl, hx⟩ | hcross)
      · exact ⟨pre, x, post ++ [e], by simp, hx⟩
      · exact ⟨log, e, [], rfl, size, threshold, hsome, htallied.total_eq ▸ hcross⟩
    · rintro ⟨pre, x, post, hsplit, hx⟩
      rcases snoc_eq_append_cons.mp hsplit with ⟨-, rfl, rfl⟩ | ⟨mid, -, hlog⟩
      · obtain ⟨_, _, hsome', hcross⟩ := hx
        rw [hsome] at hsome'
        cases hsome'
        exact Or.inr (htallied.total_eq ▸ hcross)
      · exact Or.inl ⟨pre, x, mid, hlog, hx⟩

/-- The item that turns the alarm on is the first to cross. -/
theorem firstCrossing {log : List α} {t : Tally} (h : Tallied measure log t)
    (hfired : t.fired = false) {e : α} {size threshold : Nat}
    (hsome : measure e = some (size, threshold)) (hcross : threshold ≤ t.total + size) :
    FirstCrossing measure log e := by
  refine ⟨⟨size, threshold, hsome, h.total_eq ▸ hcross⟩, fun pre x post hsplit hx => ?_⟩
  rw [h.fired_iff.mpr ⟨pre, x, post, hsplit, hx⟩] at hfired
  cases hfired

end Tallied

/-- One item is the first to cross. -/
theorem FirstCrossing.unique {pre pre' post post' : List α} {e e' : α}
    (h : FirstCrossing measure pre e) (h' : FirstCrossing measure pre' e')
    (heq : pre ++ e :: post = pre' ++ e' :: post') : pre = pre' ∧ e = e' := by
  rcases List.append_eq_append_iff.mp heq with ⟨mid, hpre', htail⟩ | ⟨mid, hpre, htail⟩
  · cases mid with
    | nil =>
      rw [List.append_nil] at hpre'
      cases htail
      exact ⟨hpre'.symm, rfl⟩
    | cons x rest =>
      cases htail
      exact absurd h.crosses (h'.first pre _ rest hpre')
  · cases mid with
    | nil =>
      rw [List.append_nil] at hpre
      cases htail
      exact ⟨hpre, rfl⟩
    | cons x rest =>
      cases htail
      exact absurd h'.crosses (h.first pre' _ rest hpre)

end UpfPolicy.Support
