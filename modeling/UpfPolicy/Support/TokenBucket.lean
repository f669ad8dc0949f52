/-
UpfPolicy.Support.TokenBucket — an integer token bucket with a carried
remainder, and how much it lets through in a window of time.

A bucket refills `rate` units of `1 / unit` token per tick, up to
`capacity` tokens. What does not make a whole token is carried as the
remainder, also when the bucket is full. `credit` counts tokens and
remainder in the small unit, and everything here is about it:

  * a refill adds at most `rate` for each tick (`credit_refill_le`) and
    never takes the credit past `capacity * unit + (unit - 1)`
    (`Sound.credit_le`);
  * a spend takes exactly what is spent (`credit_spend`);
  * a refill made in two steps is the refill made in one (`refill_refill`),
    and a later one never holds less (`level_mono`).

`Metered` is a history of spends at non-decreasing times. `window_bound`
sums the two facts over it: in a window of length `d` a bucket passes at
most `capacity * unit + rate * d + (unit - 1)` small units, the last term
being the carried remainder. `Metered.rejected` is the other half: a bucket
that started full is short of tokens only where some window up to now has
used up its burst and its rate.
-/
import Mathlib.Data.List.Sort
import Mathlib.Tactic.Linarith
import Mathlib.Tactic.Ring

namespace UpfPolicy.Support

structure Bucket where
  capacity : Nat
  rate : Nat
  unit : Nat
  unit_pos : 0 < unit

/-- The contents of a bucket and the time of its last refill. -/
structure Fill where
  tokens : Nat
  last : Nat
  remainder : Nat

/-- Charge `x` tokens. -/
def Fill.spend (s : Fill) (x : Nat) : Fill := { s with tokens := s.tokens - x }

namespace Bucket

variable (B : Bucket)

/-- What a refill has to add, in the small unit. -/
def accrued (s : Fill) (now : Nat) : Nat := (now - s.last) * B.rate + s.remainder

/-- The tokens added: whole tokens only, and no more than there is room for. -/
def added (s : Fill) (now : Nat) : Nat := min (B.capacity - s.tokens) (B.accrued s now / B.unit)

/-- The tokens after a refill. -/
def level (s : Fill) (now : Nat) : Nat := s.tokens + B.added s now

def refill (s : Fill) (now : Nat) : Fill := ⟨B.level s now, now, B.accrued s now % B.unit⟩

/-- Tokens and remainder in the small unit. -/
def credit (s : Fill) : Nat := s.tokens * B.unit + s.remainder

/-- A fill the bucket can hold. -/
structure Sound (s : Fill) : Prop where
  tokens_le : s.tokens ≤ B.capacity
  remainder_lt : s.remainder < B.unit

/-! ## One step -/

theorem Sound.credit_le {B : Bucket} {s : Fill} (h : B.Sound s) :
    B.credit s ≤ B.capacity * B.unit + (B.unit - 1) := by
  have htokens := Nat.mul_le_mul_right B.unit h.tokens_le
  have hrem := h.remainder_lt
  unfold credit
  omega

theorem level_le_capacity {s : Fill} (h : s.tokens ≤ B.capacity) (now : Nat) :
    B.level s now ≤ B.capacity := by
  unfold level added
  omega

theorem sound_refill {s : Fill} (h : s.tokens ≤ B.capacity) (now : Nat) :
    B.Sound (B.refill s now) :=
  ⟨B.level_le_capacity h now, Nat.mod_lt _ B.unit_pos⟩

theorem Sound.spend {B : Bucket} {s : Fill} (h : B.Sound s) (x : Nat) : B.Sound (s.spend x) :=
  ⟨Nat.le_trans (Nat.sub_le _ _) h.tokens_le, h.remainder_lt⟩

/-- A refill adds at most the rate for each tick that passed. -/
theorem credit_refill_le (s : Fill) (now : Nat) :
    B.credit (B.refill s now) ≤ B.credit s + B.rate * (now - s.last) := by
  have hwhole : B.added s now * B.unit ≤ B.accrued s now / B.unit * B.unit :=
    Nat.mul_le_mul_right _ (Nat.min_le_right _ _)
  have hsplit : B.accrued s now / B.unit * B.unit + B.accrued s now % B.unit = B.accrued s now :=
    Nat.div_add_mod' _ _
  have hlevel : B.level s now * B.unit = s.tokens * B.unit + B.added s now * B.unit := by
    rw [level, Nat.add_mul]
  have hacc : B.accrued s now = B.rate * (now - s.last) + s.remainder := by
    rw [accrued, Nat.mul_comm]
  simp only [credit, refill]
  omega

/-- A spend takes exactly what is spent. -/
theorem credit_spend {s : Fill} {x : Nat} (h : x ≤ s.tokens) :
    B.credit (s.spend x) + x * B.unit = B.credit s := by
  have hsub : (s.tokens - x) * B.unit + x * B.unit = s.tokens * B.unit := by
    rw [← Nat.add_mul, Nat.sub_add_cancel h]
  simp only [credit, Fill.spend]
  omega

/-! ## Refills and time -/

/-- The level as a cap: the tokens grow up to the capacity, and tokens above
it stay. -/
theorem level_eq_max (s : Fill) (now : Nat) :
    B.level s now = max s.tokens (min B.capacity (s.tokens + B.accrued s now / B.unit)) := by
  unfold level added
  generalize B.accrued s now / B.unit = whole
  omega

theorem accrued_mono (s : Fill) {t1 t2 : Nat} (h : t1 ≤ t2) :
    B.accrued s t1 ≤ B.accrued s t2 :=
  Nat.add_le_add_right (Nat.mul_le_mul_right _ (Nat.sub_le_sub_right h _)) _

/-- Waiting longer never leaves less in the bucket. -/
theorem level_mono (s : Fill) {t1 t2 : Nat} (h : t1 ≤ t2) : B.level s t1 ≤ B.level s t2 := by
  have hdiv : B.accrued s t1 / B.unit ≤ B.accrued s t2 / B.unit :=
    Nat.div_le_div_right (B.accrued_mono s h)
  unfold level added
  omega

/-- What has accrued at `t2` is what had accrued at `t1` and the rate for the
ticks in between. -/
theorem accrued_split (s : Fill) {t1 t2 : Nat} (h1 : s.last ≤ t1) (h2 : t1 ≤ t2) :
    B.accrued s t2 = B.accrued s t1 + (t2 - t1) * B.rate := by
  have hticks : t2 - s.last = (t1 - s.last) + (t2 - t1) := by omega
  rw [accrued, accrued, hticks, Nat.add_mul]
  omega

/-- After a refill only the remainder is carried over. -/
theorem accrued_refill (s : Fill) (t1 t2 : Nat) :
    B.accrued (B.refill s t1) t2 = (t2 - t1) * B.rate + B.accrued s t1 % B.unit := rfl

theorem accrued_refill_le (s : Fill) {t1 t2 : Nat} (h1 : s.last ≤ t1) (h2 : t1 ≤ t2) :
    B.accrued (B.refill s t1) t2 ≤ B.accrued s t2 := by
  have hmod := Nat.mod_le (B.accrued s t1) B.unit
  rw [accrued_refill, B.accrued_split s h1 h2]
  omega

/-- The whole tokens of a refill are those of its two parts: the carried
remainder loses nothing and counts nothing twice. -/
theorem accrued_div_split (s : Fill) {t1 t2 : Nat} (h1 : s.last ≤ t1) (h2 : t1 ≤ t2) :
    B.accrued s t2 / B.unit
      = B.accrued s t1 / B.unit + B.accrued (B.refill s t1) t2 / B.unit := by
  have hsplit := Nat.div_add_mod (B.accrued s t1) B.unit
  have hsum : B.accrued s t2
      = B.accrued (B.refill s t1) t2 + B.unit * (B.accrued s t1 / B.unit) := by
    rw [accrued_refill, B.accrued_split s h1 h2]
    omega
  rw [hsum, Nat.add_mul_div_left _ _ B.unit_pos, Nat.add_comm]

theorem accrued_mod_split (s : Fill) {t1 t2 : Nat} (h1 : s.last ≤ t1) (h2 : t1 ≤ t2) :
    B.accrued (B.refill s t1) t2 % B.unit = B.accrued s t2 % B.unit := by
  have hmod : (B.accrued s t1 % B.unit) % B.unit = B.accrued s t1 % B.unit := Nat.mod_mod _ _
  rw [accrued_refill, B.accrued_split s h1 h2, Nat.add_comm (B.accrued s t1), Nat.add_mod, hmod,
    ← Nat.add_mod]

/-- **A refill splits**: refilling at `t1` and again at `t2` is refilling once
at `t2`. -/
theorem refill_refill (s : Fill) {t1 t2 : Nat} (h1 : s.last ≤ t1) (h2 : t1 ≤ t2) :
    B.refill (B.refill s t1) t2 = B.refill s t2 := by
  have hlevel : B.level (B.refill s t1) t2 = B.level s t2 := by
    have htokens : (B.refill s t1).tokens = B.level s t1 := rfl
    rw [level_eq_max B (B.refill s t1), level_eq_max B s, htokens, level_eq_max B s,
      B.accrued_div_split s h1 h2]
    generalize B.accrued s t1 / B.unit = whole
    generalize B.accrued (B.refill s t1) t2 / B.unit = rest
    omega
  have hmod := B.accrued_mod_split s h1 h2
  calc B.refill (B.refill s t1) t2
      = ⟨B.level (B.refill s t1) t2, t2, B.accrued (B.refill s t1) t2 % B.unit⟩ := rfl
    _ = B.refill s t2 := by rw [hlevel, hmod, ← refill]

/-! ## Histories -/

/-- A history of refills, each followed by a spend the level allows. The log
holds the time and the amount of each. -/
inductive Metered (start : Fill) : List (Nat × Nat) → Fill → Prop where
  | nil : Metered start [] start
  | snoc {log : List (Nat × Nat)} {s : Fill} {t x : Nat} :
      Metered start log s → s.last ≤ t → x ≤ B.level s t →
      Metered start (log ++ [(t, x)]) ((B.refill s t).spend x)

/-- The tokens a log spends at times in `[a, b]`. -/
def spentIn (a b : Nat) (log : List (Nat × Nat)) : Nat :=
  ((log.filter fun e => a ≤ e.1 && e.1 ≤ b).map (·.2)).sum

@[simp] theorem spentIn_nil (a b : Nat) : spentIn a b [] = 0 := rfl

theorem spentIn_snoc (a b : Nat) (log : List (Nat × Nat)) (t x : Nat) :
    spentIn a b (log ++ [(t, x)])
      = spentIn a b log + if a ≤ t ∧ t ≤ b then x else 0 := by
  by_cases h : a ≤ t ∧ t ≤ b
  · simp [spentIn, List.filter_append, h]
  · have hb : (decide (a ≤ t) && decide (t ≤ b)) = false := by
      rw [← Bool.not_eq_true, Bool.and_eq_true, decide_eq_true_iff, decide_eq_true_iff]
      exact h
    simp [spentIn, List.filter_append, h, hb]

theorem spentIn_append (a b : Nat) (log log' : List (Nat × Nat)) :
    spentIn a b (log ++ log') = spentIn a b log + spentIn a b log' := by
  simp [spentIn, List.filter_append]

/-- Histories follow one another. -/
theorem Metered.append {B : Bucket} {start s u : Fill} {log log' : List (Nat × Nat)}
    (h : B.Metered start log s) (h' : B.Metered s log' u) : B.Metered start (log ++ log') u := by
  induction h' with
  | nil => simpa using h
  | snoc _ ht hx ih =>
    rw [← List.append_assoc]
    exact ih.snoc ht hx

theorem Metered.sound {B : Bucket} {start s : Fill} {log : List (Nat × Nat)}
    (hstart : B.Sound start) (h : B.Metered start log s) : B.Sound s := by
  induction h with
  | nil => exact hstart
  | snoc _ _ _ ih => exact (B.sound_refill ih.tokens_le _).spend _

/-- What the window `[a, b]` still allows, by where the last refill lies. -/
structure WindowInv (a b : Nat) (log : List (Nat × Nat)) (s : Fill) : Prop where
  before : s.last < a → spentIn a b log = 0
  inside : s.last ≤ b → spentIn a b log * B.unit + B.credit s
    ≤ B.capacity * B.unit + B.rate * (s.last - a) + (B.unit - 1)
  past : b < s.last → spentIn a b log * B.unit
    ≤ B.capacity * B.unit + B.rate * (b - a) + (B.unit - 1)

/-- The step of the window bound: one refill and one spend. -/
theorem WindowInv.step {B : Bucket} {a b : Nat} {log : List (Nat × Nat)} {s : Fill}
    (hs : B.Sound s) (h : B.WindowInv a b log s) {t x : Nat} (ht : s.last ≤ t)
    (hx : x ≤ B.level s t) :
    B.WindowInv a b (log ++ [(t, x)]) ((B.refill s t).spend x) := by
  have hspend := B.credit_spend (s := B.refill s t) hx
  have hcap := (B.sound_refill hs.tokens_le t).credit_le
  have hgrow := B.credit_refill_le s t
  have hlast : ((B.refill s t).spend x).last = t := rfl
  constructor
  · intro hta
    rw [hlast] at hta
    rw [spentIn_snoc, h.before (by omega), if_neg (by omega)]
  · intro htb
    rw [hlast] at htb ⊢
    rw [spentIn_snoc]
    by_cases hta : a ≤ t
    · rw [if_pos ⟨hta, htb⟩, Nat.add_mul]
      by_cases hsa : s.last < a
      · -- the first spend of the window: the bucket holds at most its capacity
        rw [h.before hsa]
        omega
      · have hrate : B.rate * (s.last - a) + B.rate * (t - s.last) = B.rate * (t - a) := by
          rw [← Nat.mul_add]; congr 1; omega
        have hin := h.inside (by omega)
        omega
    · rw [if_neg (by omega), h.before (by omega)]
      omega
  · intro hbt
    rw [hlast] at hbt
    rw [spentIn_snoc, if_neg (by omega), Nat.add_zero]
    by_cases hsb : s.last ≤ b
    · have hrate : B.rate * (s.last - a) ≤ B.rate * (b - a) := Nat.mul_le_mul_left _ (by omega)
      have hin := h.inside hsb
      omega
    · exact h.past (by omega)

/-- **Window bound**: what a bucket lets through between `a` and `b`. -/
theorem Metered.window_bound {B : Bucket} {start s : Fill} {log : List (Nat × Nat)}
    (hstart : B.Sound start) (h : B.Metered start log s) (a b : Nat) :
    spentIn a b log * B.unit
      ≤ B.capacity * B.unit + B.rate * (b - a) + (B.unit - 1) := by
  have hinv : B.WindowInv a b log s := by
    induction h with
    | nil =>
      have hcap := hstart.credit_le
      refine ⟨fun _ => rfl, fun _ => ?_, fun _ => ?_⟩ <;> rw [spentIn_nil] <;> omega
    | snoc hprev ht hx ih => exact WindowInv.step (hprev.sound hstart) ih ht hx
  rcases Nat.lt_or_ge b s.last with hpast | hin
  · exact hinv.past hpast
  · have hrate : B.rate * (s.last - a) ≤ B.rate * (b - a) := Nat.mul_le_mul_left _ (by omega)
    have := hinv.inside hin
    omega

/-! ## Rejections -/

/-- A refill fills the bucket, or adds the rate for every tick. -/
theorem refill_full_or_exact (s : Fill) (now : Nat) :
    B.capacity ≤ B.level s now ∨
      B.credit (B.refill s now) = B.credit s + B.rate * (now - s.last) := by
  by_cases hroom : B.accrued s now / B.unit ≤ B.capacity - s.tokens
  · right
    have hadded : B.added s now = B.accrued s now / B.unit := Nat.min_eq_right hroom
    have hsplit := Nat.div_add_mod' (B.accrued s now) B.unit
    have hacc : B.accrued s now = B.rate * (now - s.last) + s.remainder := by
      rw [accrued, Nat.mul_comm]
    simp only [credit, refill, level, hadded, Nat.add_mul]
    omega
  · left
    unfold level added
    omega

theorem spentIn_mono (a : Nat) (log : List (Nat × Nat)) {b c : Nat} (h : b ≤ c) :
    spentIn a b log ≤ spentIn a c log := by
  induction log with
  | nil => simp
  | cons e log ih =>
    simp only [spentIn, List.filter_cons, Bool.and_eq_true, decide_eq_true_eq] at ih ⊢
    by_cases hb : a ≤ e.1 ∧ e.1 ≤ b
    · rw [if_pos hb, if_pos ⟨hb.1, Nat.le_trans hb.2 h⟩]
      simp only [List.map_cons, List.sum_cons]
      omega
    · rw [if_neg hb]
      split
      · simp only [List.map_cons, List.sum_cons]
        omega
      · exact ih

/-- Since `a` all that the bucket lacks of its capacity and its rate was
spent. -/
structure Accounted (start : Fill) (a : Nat) (log : List (Nat × Nat)) (s : Fill) : Prop where
  since : start.last ≤ a
  upTo : a ≤ s.last
  paid : B.capacity * B.unit + B.rate * (s.last - a)
    ≤ B.credit s + spentIn a s.last log * B.unit

/-- A refill at `t` can be accounted for: from `t` on if it fills the
bucket, otherwise from where the bucket was accounted for before. -/
theorem Accounted.refill {B : Bucket} {start s : Fill} {a t : Nat} {log : List (Nat × Nat)}
    (h : B.Accounted start a log s) (ht : s.last ≤ t) :
    ∃ a', B.Accounted start a' log (B.refill s t) := by
  rcases B.refill_full_or_exact s t with hfull | hexact
  · refine ⟨t, Nat.le_trans (Nat.le_trans h.since h.upTo) ht, Nat.le_refl t, ?_⟩
    have hcap : B.capacity * B.unit ≤ B.level s t * B.unit := Nat.mul_le_mul_right _ hfull
    simp only [credit, Bucket.refill, Nat.sub_self, Nat.mul_zero]
    omega
  · have hrate : B.rate * (s.last - a) + B.rate * (t - s.last) = B.rate * (t - a) := by
      have hupTo := h.upTo
      rw [← Nat.mul_add]; congr 1; omega
    have hspent := Nat.mul_le_mul_right B.unit (spentIn_mono a log ht)
    have hpaid := h.paid
    refine ⟨a, h.since, Nat.le_trans h.upTo ht, ?_⟩
    rw [hexact]
    show _ + B.rate * (t - a) ≤ _ + spentIn a t log * B.unit
    omega

theorem Accounted.spend {B : Bucket} {start s : Fill} {a x : Nat} {log : List (Nat × Nat)}
    (h : B.Accounted start a log s) (hx : x ≤ s.tokens) :
    B.Accounted start a (log ++ [(s.last, x)]) (s.spend x) := by
  have hspend := B.credit_spend hx
  have hpaid := h.paid
  refine ⟨h.since, h.upTo, ?_⟩
  show _ + B.rate * (s.last - a) ≤ _ + spentIn a s.last _ * B.unit
  rw [spentIn_snoc, if_pos ⟨h.upTo, Nat.le_refl _⟩, Nat.add_mul]
  omega

/-- A history that started with a full bucket is accounted for throughout. -/
theorem Metered.accounted {B : Bucket} {start s : Fill} {log : List (Nat × Nat)}
    (hfull : B.capacity ≤ start.tokens) (h : B.Metered start log s) :
    ∃ a, B.Accounted start a log s := by
  induction h with
  | nil =>
    have hcap := Nat.mul_le_mul_right B.unit hfull
    refine ⟨start.last, Nat.le_refl _, Nat.le_refl _, ?_⟩
    simp only [credit, Nat.sub_self, Nat.mul_zero]
    omega
  | snoc _ ht hx ih =>
    obtain ⟨a, ha⟩ := ih
    obtain ⟨a', ha'⟩ := ha.refill ht
    exact ⟨a', ha'.spend hx⟩

/-- **A justified rejection**: if the bucket is short of `x` tokens at `t`,
then `x` and what was spent in some window up to `t` exceed the capacity and
the rate of that window. -/
theorem Metered.rejected {B : Bucket} {start s : Fill} {log : List (Nat × Nat)}
    (hfull : B.capacity ≤ start.tokens) (h : B.Metered start log s) {t x : Nat}
    (ht : s.last ≤ t) (hshort : B.level s t < x) :
    ∃ a, start.last ≤ a ∧ a ≤ t ∧
      B.capacity * B.unit + B.rate * (t - a) < (spentIn a t log + x) * B.unit := by
  obtain ⟨a, ha⟩ := h.accounted hfull
  obtain ⟨a', hsince, hupTo, hpaid⟩ := ha.refill ht
  have hrem : B.accrued s t % B.unit < B.unit := Nat.mod_lt _ B.unit_pos
  have hx : (B.level s t + 1) * B.unit ≤ x * B.unit := Nat.mul_le_mul_right _ hshort
  refine ⟨a', hsince, hupTo, ?_⟩
  simp only [credit, Bucket.refill] at hpaid
  rw [Nat.add_mul, Nat.one_mul] at hx
  rw [Nat.add_mul]
  omega

end Bucket

end UpfPolicy.Support
