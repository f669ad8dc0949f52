/-
UpfPolicy.Support.Queue — what happens to the elements of a queue.

A first-in first-out queue is a list; what a step of a larger system does
to it is a `Move`: nothing, a push at the end, a pop at the front, or
taking everything. `releasedBy q ms` is what leaves the queue over a list
of moves and `queueAfter q ms` is what is left. The rules are

  * `releasedBy_append_queueAfter` — conservation: what has left, followed
    by what is left, is the queue followed by what was pushed, in order;
  * `length_releasedBy_le` and `min_pops_le_length_releasedBy` — a pop
    releases one element for as long as there are any;
  * `getElem?_queueAfter` — an element with `n` before it is `n - c` places
    from the front after `c ≤ n` pops;
  * `releasedBy_of_popping` and `queueAfter_of_popping` — a queue that is only
    popped gives up its front, one element a pop.
-/
import Mathlib.Data.List.Sort

namespace UpfPolicy.Support

/-- What one step does to a queue. -/
inductive Move (α : Type) where
  | stay
  | push (a : α)
  | pop
  | clear

variable {α : Type}

namespace Move

/-- What leaves the queue. -/
def released : Move α → List α → List α
  | stay, _ => []
  | push _, _ => []
  | pop, q => q.take 1
  | clear, q => q

/-- What is left. -/
def next : Move α → List α → List α
  | stay, q => q
  | push a, q => q ++ [a]
  | pop, q => q.drop 1
  | clear, _ => []

/-- What enters the queue. -/
def pushed : Move α → List α
  | push a => [a]
  | _ => []

def isPop : Move α → Bool
  | pop => true
  | _ => false

/-- One move loses and invents nothing. -/
theorem conserves (m : Move α) (q : List α) : m.released q ++ m.next q = q ++ m.pushed := by
  cases m with
  | stay => simp [released, next, pushed]
  | push a => simp [released, next, pushed]
  | pop => simp only [released, next, pushed, List.take_append_drop, List.append_nil]
  | clear => simp [released, next, pushed]

end Move

/-- The queue after a list of moves. -/
def queueAfter (q : List α) : List (Move α) → List α
  | [] => q
  | m :: ms => queueAfter (m.next q) ms

/-- What a list of moves releases. -/
def releasedBy (q : List α) : List (Move α) → List α
  | [] => []
  | m :: ms => m.released q ++ releasedBy (m.next q) ms

theorem queueAfter_snoc (q : List α) (ms : List (Move α)) (m : Move α) :
    queueAfter q (ms ++ [m]) = m.next (queueAfter q ms) := by
  induction ms generalizing q with
  | nil => rfl
  | cons m' ms ih => exact ih (m'.next q)

theorem releasedBy_snoc (q : List α) (ms : List (Move α)) (m : Move α) :
    releasedBy q (ms ++ [m]) = releasedBy q ms ++ m.released (queueAfter q ms) := by
  induction ms generalizing q with
  | nil => simp [releasedBy, queueAfter]
  | cons m' ms ih =>
    rw [List.cons_append, releasedBy, ih, releasedBy, queueAfter, List.append_assoc]

/-- The number of pops, whether they found an element or not. -/
def pops (ms : List (Move α)) : Nat := ms.countP Move.isPop

/-- **Conservation.** -/
theorem releasedBy_append_queueAfter (q : List α) (ms : List (Move α)) :
    releasedBy q ms ++ queueAfter q ms = q ++ ms.flatMap Move.pushed := by
  induction ms generalizing q with
  | nil => simp [releasedBy, queueAfter]
  | cons m ms ih =>
    rw [releasedBy, queueAfter, List.append_assoc, ih, ← List.append_assoc, m.conserves,
      List.append_assoc, List.flatMap_cons]

/-- A pop releases at most one element. -/
theorem length_releasedBy_le (q : List α) {ms : List (Move α)} (h : ∀ m ∈ ms, m ≠ .clear) :
    (releasedBy q ms).length ≤ pops ms := by
  induction ms generalizing q with
  | nil => exact Nat.le_refl 0
  | cons m ms ih =>
    have hrest := ih (m.next q) fun m' hm' => h m' (List.mem_cons_of_mem m hm')
    have hm := h m List.mem_cons_self
    unfold pops at hrest ⊢
    rw [releasedBy, List.length_append, List.countP_cons]
    cases m with
    | stay => simpa [Move.released, Move.isPop] using hrest
    | push a => simpa [Move.released, Move.isPop] using hrest
    | pop =>
      have hone : (q.take 1).length ≤ 1 := by simp
      simp only [Move.released, Move.isPop, if_true]
      omega
    | clear => exact absurd rfl hm

/-- A pop releases an element for as long as there is one from the start. -/
theorem min_pops_le_length_releasedBy (q : List α) (ms : List (Move α)) :
    min (pops ms) q.length ≤ (releasedBy q ms).length := by
  induction ms generalizing q with
  | nil => simp [pops]
  | cons m ms ih =>
    have hrest := ih (m.next q)
    unfold pops at hrest ⊢
    rw [releasedBy, List.length_append, List.countP_cons]
    cases m with
    | stay => simpa [Move.released, Move.next, Move.isPop] using hrest
    | push a =>
      simp only [Move.released, Move.next, Move.isPop, List.length_append, List.length_singleton,
        List.length_nil, Bool.false_eq_true, if_false] at hrest ⊢
      omega
    | pop =>
      simp only [Move.released, Move.next, Move.isPop, List.length_take, List.length_drop,
        if_true] at hrest ⊢
      omega
    | clear =>
      simp only [Move.released]
      omega

section Place

variable {q : List α} {n : Nat} {ms : List (Move α)}

/-- As long as the queue from the start lasts, every pop releases one. -/
theorem length_releasedBy_of_le (hclear : ∀ m ∈ ms, m ≠ .clear) (hle : pops ms ≤ q.length) :
    (releasedBy q ms).length = pops ms := by
  have hlow := min_pops_le_length_releasedBy q ms
  have hhigh := length_releasedBy_le q hclear
  omega

/-- The element with `n` before it is the next to leave exactly after `n`
pops. -/
theorem length_releasedBy_eq_iff (hclear : ∀ m ∈ ms, m ≠ .clear) (hn : n < q.length) :
    (releasedBy q ms).length = n ↔ pops ms = n := by
  have hlow := min_pops_le_length_releasedBy q ms
  have hhigh := length_releasedBy_le q hclear
  omega

/-- **Each pop brings an element one place forward.** -/
theorem getElem?_queueAfter (hclear : ∀ m ∈ ms, m ≠ .clear) (hn : n < q.length)
    (hle : pops ms ≤ n) : (queueAfter q ms)[n - pops ms]? = q[n]? := by
  have hlength := length_releasedBy_of_le hclear (Nat.le_trans hle (Nat.le_of_lt hn))
  calc (queueAfter q ms)[n - pops ms]?
      = (releasedBy q ms ++ queueAfter q ms)[n]? := by
        rw [List.getElem?_append_right (by omega), hlength]
    _ = (q ++ ms.flatMap Move.pushed)[n]? := by rw [releasedBy_append_queueAfter]
    _ = q[n]? := List.getElem?_append_left hn

end Place

section Popping

variable {q : List α} {ms : List (Move α)}

/-- Nothing is pushed and nothing cleared. -/
def Popping (ms : List (Move α)) : Prop := ∀ m ∈ ms, m = .stay ∨ m = .pop

theorem pops_cons_pop (ms : List (Move α)) : pops (.pop :: ms) = pops ms + 1 :=
  List.countP_cons_of_pos rfl

theorem pops_cons_stay (ms : List (Move α)) : pops (.stay :: ms) = pops ms :=
  List.countP_cons_of_neg (by simp [Move.isPop])

theorem queueAfter_of_popping (h : Popping ms) : queueAfter q ms = q.drop (pops ms) := by
  induction ms generalizing q with
  | nil => rfl
  | cons m ms ih =>
    obtain ⟨hm, hms⟩ := List.forall_mem_cons.mp h
    rcases hm with rfl | rfl
    · rw [queueAfter, ih hms, pops_cons_stay]
      rfl
    · rw [queueAfter, ih hms, pops_cons_pop]
      simp [Move.next, Nat.add_comm]

theorem releasedBy_of_popping (h : Popping ms) : releasedBy q ms = q.take (pops ms) := by
  have hconserves := releasedBy_append_queueAfter q ms
  have hpushed : ms.flatMap Move.pushed = [] := by
    refine List.flatMap_eq_nil_iff.mpr fun m hm => ?_
    rcases h m hm with rfl | rfl <;> rfl
  rw [queueAfter_of_popping h, hpushed, List.append_nil] at hconserves
  refine List.append_cancel_right (hconserves.trans ?_)
  exact (List.take_append_drop _ _).symm

end Popping

end UpfPolicy.Support
