/-
UpfPolicy.Support.Numerals — reading decimal numbers off the end of a text.

A text that ends in a mark that is no digit and a decimal number determines
both the number and what stands before it (`append_mark_repr_inj`), whatever
that is. Texts built by appending marked numbers are therefore read back
from the right, one number at a time.
-/
import Mathlib.Data.List.Sort

namespace UpfPolicy.Support

/-- Two lists with the same last element outside a class agree before it and
after it. -/
theorem append_cons_inj {α : Type} {P : α → Prop} {l l' d d' : List α} {c c' : α}
    (hc : ¬ P c) (hc' : ¬ P c') (hd : ∀ x ∈ d, P x) (hd' : ∀ x ∈ d', P x)
    (h : l ++ c :: d = l' ++ c' :: d') : l = l' ∧ c = c' ∧ d = d' := by
  rcases List.append_eq_append_iff.mp h with ⟨mid, hl, htail⟩ | ⟨mid, hl, htail⟩
  · cases mid with
    | nil =>
      rw [List.append_nil] at hl
      cases htail
      exact ⟨hl.symm, rfl, rfl⟩
    | cons x rest =>
      obtain ⟨-, hrest⟩ := List.cons.inj htail
      exact absurd (hd c' (by rw [hrest]; simp)) hc'
  · cases mid with
    | nil =>
      rw [List.append_nil] at hl
      cases htail
      exact ⟨hl, rfl, rfl⟩
    | cons x rest =>
      obtain ⟨-, hrest⟩ := List.cons.inj htail
      exact absurd (hd' c (by rw [hrest]; simp)) hc

theorem toDigits_ten_inj {m n : Nat} (h : Nat.toDigits 10 m = Nat.toDigits 10 n) : m = n := by
  rw [← Nat.ofDigitChars_ten_toDigits (n := m), h, Nat.ofDigitChars_ten_toDigits]

theorem isDigit_of_mem_repr {n : Nat} {c : Char} (h : c ∈ (toString n).toList) :
    c.isDigit = true := by
  rw [Nat.toString_eq_repr, Nat.toList_repr] at h
  exact Nat.isDigit_of_mem_toDigits (by decide) (by decide) h

/-- **The last marked number of a text.** -/
theorem append_mark_repr_inj {s s' mark : String} (front : List Char) (c : Char)
    (hmark : mark.toList = front ++ [c]) (hc : c.isDigit = false) {m n : Nat}
    (h : s ++ mark ++ toString m = s' ++ mark ++ toString n) : s = s' ∧ m = n := by
  have hlist : (s.toList ++ front) ++ c :: (toString m).toList
      = (s'.toList ++ front) ++ c :: (toString n).toList := by
    have htexts := congrArg String.toList h
    simp only [String.toList_append, hmark] at htexts
    simpa using htexts
  have hnot : ¬ c.isDigit = true := by simp [hc]
  have hsplit := append_cons_inj (P := fun x : Char => x.isDigit = true) hnot hnot
    (fun _ => isDigit_of_mem_repr) (fun _ => isDigit_of_mem_repr) hlist
  obtain ⟨hfront, -, hdigits⟩ := hsplit
  refine ⟨String.toList_inj.mp (List.append_cancel_right hfront), ?_⟩
  rw [Nat.toString_eq_repr, Nat.toString_eq_repr, Nat.toList_repr, Nat.toList_repr] at hdigits
  exact toDigits_ten_inj hdigits

end UpfPolicy.Support
