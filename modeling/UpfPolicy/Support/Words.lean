/-
UpfPolicy.Support.Words — 64-bit arithmetic that keeps a log of its
operations.

A `Logged` computation returns its value and the additions, subtractions
and multiplications of words it made on the way. An operation `Fits` when
its word result is the result over the unbounded integers, and a
computation is `Exact` when all of its operations fit. Division and
remainder of words never leave the range, so they are not logged.

The log is written by `word` alone: a computation built from `word`, `pure`
and `bind` cannot add two words without the log saying so.
-/
import Mathlib.Algebra.Order.Ring.Nat
import Mathlib.Algebra.Order.Ring.Int

namespace UpfPolicy.Support

inductive WordOp where
  | add (a b : UInt64)
  | sub (a b : UInt64)
  | mul (a b : UInt64)
  deriving DecidableEq, Repr

namespace WordOp

/-- What the machine computes. -/
def value : WordOp → UInt64
  | add a b => a + b
  | sub a b => a - b
  | mul a b => a * b

/-- The same operation over the integers. -/
def exact : WordOp → Int
  | add a b => a.toNat + b.toNat
  | sub a b => a.toNat - b.toNat
  | mul a b => a.toNat * b.toNat

/-- The operation does not wrap. -/
def Fits (op : WordOp) : Prop := (op.value.toNat : Int) = op.exact

theorem add_fits {a b : UInt64} (h : a.toNat + b.toNat < 2 ^ 64) : (add a b).Fits := by
  have hsum : (a + b).toNat = a.toNat + b.toNat := by
    rw [UInt64.toNat_add]
    exact Nat.mod_eq_of_lt h
  simp [Fits, value, exact, hsum]

theorem sub_fits {a b : UInt64} (h : b ≤ a) : (sub a b).Fits := by
  have hle := UInt64.le_iff_toNat_le.mp h
  have hdiff := UInt64.toNat_sub_of_le _ _ h
  simp only [Fits, value, exact, hdiff]
  omega

theorem mul_fits {a b : UInt64} (h : a.toNat * b.toNat < 2 ^ 64) : (mul a b).Fits := by
  have hprod : (a * b).toNat = a.toNat * b.toNat := by
    rw [UInt64.toNat_mul]
    exact Nat.mod_eq_of_lt h
  simp [Fits, value, exact, hprod]

end WordOp

/-! ## Computations with a log -/

structure Logged (α : Type) where
  value : α
  log : List WordOp
  deriving Repr

namespace Logged

variable {α β : Type}

instance : Monad Logged where
  pure a := ⟨a, []⟩
  bind x f := ⟨(f x.value).value, x.log ++ (f x.value).log⟩

/-- Perform one operation. -/
def word (op : WordOp) : Logged UInt64 := ⟨op.value, [op]⟩

/-- No operation of the computation wraps. -/
def Exact (x : Logged α) : Prop := ∀ op ∈ x.log, op.Fits

@[simp] theorem value_pure (a : α) : (pure a : Logged α).value = a := rfl

@[simp] theorem value_bind (x : Logged α) (f : α → Logged β) :
    (x >>= f).value = (f x.value).value := rfl

@[simp] theorem value_word (op : WordOp) : (word op).value = op.value := rfl

theorem exact_pure (a : α) : (pure a : Logged α).Exact := by
  intro op hop
  cases hop

theorem exact_word {op : WordOp} (h : op.Fits) : (word op).Exact := by
  intro op' hop
  rw [List.mem_singleton.mp hop]
  exact h

/-- A computation is exact when its first part is, and the rest is from the
value of the first part on. -/
theorem Exact.bind {x : Logged α} {f : α → Logged β} (hx : x.Exact) (hf : (f x.value).Exact) :
    (x >>= f).Exact := by
  intro op hop
  rcases List.mem_append.mp hop with h | h
  · exact hx op h
  · exact hf op h

end Logged

end UpfPolicy.Support
