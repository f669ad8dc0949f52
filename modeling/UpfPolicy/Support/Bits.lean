/-
UpfPolicy.Support.Bits — bytes read most significant bit first.

`msb b k` is bit `k` of a byte counted from the left. A byte is its eight
bits (`byte_ext`), and comparing two bytes under the mask that keeps the
first `k` bits compares exactly those bits (`highMask_eq_iff`). A byte
list is the bit sequence `bitAt`, so comparing two lists on whole bytes
compares the bits of those bytes (`take_eq_iff_bitAt`).
-/
import Mathlib.Data.List.Sort

namespace UpfPolicy.Support

/-- Bit `k` of a byte, `k = 0` the most significant. -/
def msb (b : UInt8) (k : Nat) : Bool := b.toNat.testBit (7 - k)

/-- The mask that keeps the first `k` bits of a byte. -/
def highMask (k : Nat) : UInt8 := (0xFF : UInt8) <<< (8 - k).toUInt8

/-- A byte is its eight bits. -/
theorem byte_ext {a b : UInt8} (h : ∀ k < 8, msb a k = msb b k) : a = b := by
  apply UInt8.toNat_inj.mp
  apply Nat.eq_of_testBit_eq
  intro i
  by_cases hi : i < 8
  · have := h (7 - i) (by omega)
    simpa [msb, show 7 - (7 - i) = i by omega] using this
  · have ha : a.toNat < 2 ^ i := Nat.lt_of_lt_of_le a.toNat_lt (Nat.pow_le_pow_right (by omega) (by omega))
    have hb : b.toNat < 2 ^ i := Nat.lt_of_lt_of_le b.toNat_lt (Nat.pow_le_pow_right (by omega) (by omega))
    rw [Nat.testBit_lt_two_pow ha, Nat.testBit_lt_two_pow hb]

/-- The mask has exactly its first `k` bits set. -/
theorem msb_highMask {k j : Nat} (hk : 0 < k) (hk8 : k < 8) (hj : j < 8) :
    msb (highMask k) j = decide (j < k) := by
  have hall : ∀ k < 8, 0 < k → ∀ j < 8, msb (highMask k) j = decide (j < k) := by decide
  exact hall k hk8 hk j hj

theorem msb_and (a b : UInt8) (k : Nat) : msb (a &&& b) k = (msb a k && msb b k) := by
  simp [msb, UInt8.toNat_and, Nat.testBit_and]

/-- Equality under the mask is equality of the first `k` bits. -/
theorem highMask_eq_iff {k : Nat} (hk : 0 < k) (hk8 : k < 8) (a b : UInt8) :
    a &&& highMask k = b &&& highMask k ↔ ∀ j < k, msb a j = msb b j := by
  constructor
  · intro h j hj
    have hbit := congrArg (msb · j) h
    simpa [msb_and, msb_highMask hk hk8 (by omega : j < 8), hj] using hbit
  · intro h
    apply byte_ext
    intro j hj
    rw [msb_and, msb_and, msb_highMask hk hk8 hj]
    by_cases hjk : j < k
    · simp [h j hjk]
    · simp [hjk]

/-! ## Byte lists as bit sequences -/

/-- Bit `i` of a byte list; past the end every bit is zero. -/
def bitAt (bytes : List UInt8) (i : Nat) : Bool := msb (bytes.getD (i / 8) 0) (i % 8)

theorem bitAt_mul_add (bytes : List UInt8) (j k : Nat) (hk : k < 8) :
    bitAt bytes (8 * j + k) = msb (bytes.getD j 0) k := by
  have hdiv : (8 * j + k) / 8 = j := by omega
  have hmod : (8 * j + k) % 8 = k := by omega
  rw [bitAt, hdiv, hmod]

/-- Two equally long byte lists agree on their first `n` bytes exactly when
they agree on their first `8 * n` bits. -/
theorem take_eq_iff_bitAt {xs ys : List UInt8} (hlen : xs.length = ys.length) (n : Nat) :
    xs.take n = ys.take n ↔ ∀ i < 8 * n, bitAt xs i = bitAt ys i := by
  constructor
  · intro h i hi
    have hget : xs.getD (i / 8) 0 = ys.getD (i / 8) 0 := by
      have := congrArg (·[i / 8]?) h
      simp only [List.getElem?_take_of_lt (show i / 8 < n by omega)] at this
      simp [List.getD_eq_getElem?_getD, this]
    rw [bitAt, bitAt, hget]
  · intro h
    apply List.ext_getElem?
    intro j
    by_cases hj : j < n
    · rw [List.getElem?_take_of_lt hj, List.getElem?_take_of_lt hj]
      by_cases hx : j < xs.length
      · have hy : j < ys.length := hlen ▸ hx
        have hbyte : xs.getD j 0 = ys.getD j 0 := by
          apply byte_ext
          intro k hk
          rw [← bitAt_mul_add xs j k hk, ← bitAt_mul_add ys j k hk]
          exact h _ (by omega)
        simpa [List.getD_eq_getElem?_getD, List.getElem?_eq_getElem, hx, hy] using hbyte
      · rw [List.getElem?_eq_none (by omega), List.getElem?_eq_none (by omega)]
    · rw [List.getElem?_eq_none (by simp; omega), List.getElem?_eq_none (by simp; omega)]

end UpfPolicy.Support
