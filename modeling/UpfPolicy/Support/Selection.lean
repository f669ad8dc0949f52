/-
UpfPolicy.Support.Selection — the first element with the least key.

`firstMin key xs` walks a list and keeps the current choice until an
element with a strictly smaller key comes. Its choice is a member with the
least key (`firstMin_least`). Where equal keys mean equal elements that
determines it, so the order of the list does not matter (`firstMin_perm`);
without that hypothesis the first of several least elements wins. Other
keys in the same order choose the same element (`firstMin_map`).
-/
import Mathlib.Data.List.Sort

namespace UpfPolicy.Support

variable {α κ : Type} [LinearOrder κ]

/-- One turn: replace the choice only by a strictly smaller key. -/
def minStep (key : α → κ) (best : Option α) (x : α) : Option α :=
  if best.all (fun b => decide (key x < key b)) then some x else best

def firstMin (key : α → κ) (xs : List α) : Option α := xs.foldl (minStep key) none

/-- From a choice in hand the walk ends at a least element of that choice
and the list. -/
theorem foldl_minStep_some (key : α → κ) (xs : List α) (b : α) :
    ∃ m, xs.foldl (minStep key) (some b) = some m ∧ m ∈ b :: xs ∧
      ∀ x ∈ b :: xs, key m ≤ key x := by
  induction xs generalizing b with
  | nil => exact ⟨b, rfl, List.mem_singleton.mpr rfl, by simp⟩
  | cons y ys ih =>
    rw [List.foldl_cons]
    by_cases hlt : key y < key b
    · have hstep : minStep key (some b) y = some y := by simp [minStep, hlt]
      obtain ⟨m, hm, hmem, hleast⟩ := ih y
      refine ⟨m, by rw [hstep, hm], List.mem_cons_of_mem b hmem, ?_⟩
      intro x hx
      rcases List.mem_cons.mp hx with rfl | hx
      · exact le_trans (hleast y (List.mem_cons_self ..)) (le_of_lt hlt)
      · exact hleast x hx
    · have hstep : minStep key (some b) y = some b := by simp [minStep, hlt]
      obtain ⟨m, hm, hmem, hleast⟩ := ih b
      refine ⟨m, by rw [hstep, hm], ?_, ?_⟩
      · rcases List.mem_cons.mp hmem with rfl | hmem
        · exact List.mem_cons_self ..
        · exact List.mem_cons_of_mem _ (List.mem_cons_of_mem _ hmem)
      · intro x hx
        rcases List.mem_cons.mp hx with rfl | hx
        · exact hleast x (List.mem_cons_self ..)
        · rcases List.mem_cons.mp hx with rfl | hx
          · exact le_trans (hleast b (List.mem_cons_self ..)) (le_of_not_gt hlt)
          · exact hleast x (List.mem_cons_of_mem _ hx)

/-- The choice is a member with the least key. -/
theorem firstMin_least {key : α → κ} {xs : List α} {m : α} (h : firstMin key xs = some m) :
    m ∈ xs ∧ ∀ x ∈ xs, key m ≤ key x := by
  cases xs with
  | nil => cases h
  | cons y ys =>
    obtain ⟨m', hm', hmem, hleast⟩ := foldl_minStep_some key ys y
    have hfirst : firstMin key (y :: ys) = some m' := by
      rw [firstMin, List.foldl_cons, ← hm']
      rfl
    rw [hfirst] at h
    cases h
    exact ⟨hmem, hleast⟩

theorem firstMin_eq_none_iff {key : α → κ} {xs : List α} : firstMin key xs = none ↔ xs = [] := by
  cases xs with
  | nil => exact ⟨fun _ => rfl, fun _ => rfl⟩
  | cons y ys =>
    obtain ⟨m, hm, -, -⟩ := foldl_minStep_some key ys y
    have hfirst : firstMin key (y :: ys) = some m := by
      rw [firstMin, List.foldl_cons, ← hm]
      rfl
    simp [hfirst]

/-- Where equal keys mean equal elements, the choice is the only least one. -/
theorem firstMin_eq_some_iff {key : α → κ} {xs : List α}
    (hinj : ∀ a ∈ xs, ∀ b ∈ xs, key a = key b → a = b) {m : α} :
    firstMin key xs = some m ↔ m ∈ xs ∧ ∀ x ∈ xs, key m ≤ key x := by
  refine ⟨firstMin_least, ?_⟩
  rintro ⟨hmem, hleast⟩
  cases hfirst : firstMin key xs with
  | none =>
    rw [firstMin_eq_none_iff.mp hfirst] at hmem
    exact absurd hmem List.not_mem_nil
  | some m' =>
    obtain ⟨hmem', hleast'⟩ := firstMin_least hfirst
    rw [hinj m' hmem' m hmem (le_antisymm (hleast' m hmem) (hleast m' hmem'))]

/-- Where equal keys mean equal elements, the order does not matter. -/
theorem firstMin_perm {key : α → κ} {xs ys : List α} (hperm : xs.Perm ys)
    (hinj : ∀ a ∈ xs, ∀ b ∈ xs, key a = key b → a = b) :
    firstMin key xs = firstMin key ys := by
  have hinj' : ∀ a ∈ ys, ∀ b ∈ ys, key a = key b → a = b :=
    fun a ha b hb => hinj a (hperm.mem_iff.mpr ha) b (hperm.mem_iff.mpr hb)
  apply Option.ext
  intro m
  simp only [firstMin_eq_some_iff hinj, firstMin_eq_some_iff hinj', hperm.mem_iff]

/-! ## Other keys -/

section Rekeyed

variable {β κ' : Type} [LinearOrder κ'] {key : α → κ} {key' : β → κ'} {g : α → β}

theorem minStep_map {best : Option α} {x : α}
    (h : ∀ b, best = some b → (key' (g x) < key' (g b) ↔ key x < key b)) :
    minStep key' (best.map g) (g x) = (minStep key best x).map g := by
  cases best with
  | none => rfl
  | some b =>
    by_cases hlt : key x < key b
    · simp [minStep, hlt, (h b rfl).mpr hlt]
    · have hnot : ¬ key' (g x) < key' (g b) := fun hkey => hlt ((h b rfl).mp hkey)
      simp [minStep, hlt, hnot]

theorem foldl_minStep_map (xs : List α) (best : Option α)
    (h : ∀ a ∈ best.toList ++ xs, ∀ b ∈ best.toList ++ xs,
      (key' (g a) < key' (g b) ↔ key a < key b)) :
    (xs.map g).foldl (minStep key') (best.map g) = (xs.foldl (minStep key) best).map g := by
  induction xs generalizing best with
  | nil => rfl
  | cons x xs ih =>
    have hkeys : ∀ b, best = some b → (key' (g x) < key' (g b) ↔ key x < key b) :=
      fun b hb => h x (by simp) b (by simp [hb])
    rw [List.map_cons, List.foldl_cons, List.foldl_cons, minStep_map hkeys]
    -- the choice after the turn is the old one or `x`
    have hsub : ∀ a ∈ (minStep key best x).toList ++ xs, a ∈ best.toList ++ x :: xs := by
      intro a ha
      rcases List.mem_append.mp ha with ha | ha
      · rw [minStep] at ha
        split at ha
        · simp_all
        · exact List.mem_append_left _ ha
      · exact List.mem_append_right _ (List.mem_cons_of_mem x ha)
    exact ih _ fun a ha b hb => h a (hsub a ha) b (hsub b hb)

/-- Renaming the elements keeps the choice, as long as the new keys are
ordered as the old ones. -/
theorem firstMin_map (xs : List α)
    (h : ∀ a ∈ xs, ∀ b ∈ xs, (key' (g a) < key' (g b) ↔ key a < key b)) :
    firstMin key' (xs.map g) = (firstMin key xs).map g :=
  foldl_minStep_map xs none h

end Rekeyed

end UpfPolicy.Support
