/-
UpfPolicy.Domain.AddressTheorems — prefix membership, bit by bit.

`contains_iff` characterises `IpPrefix.contains`: the families agree and so
does every address bit below the prefix length. Two prefixes that share a
member are therefore comparable (`contains_network_of_common`): the longer
one's network lies in the shorter one. The ruleset validation rests on
that fact, because it tests two prefixes for overlap by asking whether one
contains the other's network. As sets of addresses, two prefixes are nested
or disjoint (`nested_or_disjoint`, `nested_iff`).

`containsChecked` is the source's function over arrays that can be accessed
anywhere, with `none` for an access past the end; there is none.
-/
import Mathlib.Data.Set.Lattice
import Mathlib.Order.CompletePartialOrder
import UpfPolicy.Domain.Address

namespace UpfPolicy

open Support

/-- **Membership is bitwise**: same family, and the same bits below the
prefix length. -/
theorem IpPrefix.contains_iff (p : IpPrefix) (a : IpAddress) :
    p.contains a = true ↔
      p.network.family = a.family ∧ ∀ i < p.length.toNat, p.network.bit i = a.bit i := by
  have hlen : p.network.bytes.toList.length = a.bytes.toList.length := by simp
  have hwhole := take_eq_iff_bitAt hlen (p.length.toNat / 8)
  unfold IpPrefix.contains
  by_cases hfam : p.network.family = a.family
  · simp only [hfam, ne_eq, not_true_eq_false, ↓reduceIte, true_and]
    by_cases htake : p.network.bytes.toList.take (p.length.toNat / 8)
        = a.bytes.toList.take (p.length.toNat / 8)
    · have hlow := hwhole.mp htake
      simp only [htake, not_true_eq_false, ↓reduceIte]
      by_cases hrest : p.length.toNat % 8 = 0
      · simp only [hrest, ↓reduceDIte, true_iff]
        intro i hi
        exact hlow i (by omega)
      · simp only [hrest, ↓reduceDIte, beq_iff_eq]
        have hlt := p.whole_lt hrest
        rw [show (0xFF : UInt8) <<< (8 - p.length.toNat % 8).toUInt8
            = highMask (p.length.toNat % 8) from rfl,
          highMask_eq_iff (by omega) (by omega)]
        constructor
        · intro hrestBits i hi
          by_cases hi8 : i < 8 * (p.length.toNat / 8)
          · exact hlow i hi8
          · have hdiv : i / 8 = p.length.toNat / 8 := by omega
            have := hrestBits (i % 8) (by omega)
            simpa [IpAddress.bit, bitAt, hdiv, Vector.get, hlt] using this
        · intro hall j hj
          have := hall (8 * (p.length.toNat / 8) + j) (by omega)
          rw [IpAddress.bit, IpAddress.bit, bitAt_mul_add _ _ _ (by omega),
            bitAt_mul_add _ _ _ (by omega)] at this
          simpa [Vector.get, hlt] using this
    · simp only [htake, not_false_eq_true, ↓reduceIte, Bool.false_eq_true, false_iff]
      intro hall
      exact htake (hwhole.mpr (fun i hi => hall i (by omega)))
  · simp [hfam]

theorem IpPrefix.contains_network (p : IpPrefix) : p.contains p.network = true :=
  (p.contains_iff p.network).mpr ⟨rfl, fun _ _ => rfl⟩

/-- Two prefixes with a common member are nested: one of them contains the
other's network address. -/
theorem IpPrefix.contains_network_of_common {p q : IpPrefix} {a : IpAddress}
    (hp : p.contains a = true) (hq : q.contains a = true) :
    p.contains q.network = true ∨ q.contains p.network = true := by
  obtain ⟨hpf, hpb⟩ := (p.contains_iff a).mp hp
  obtain ⟨hqf, hqb⟩ := (q.contains_iff a).mp hq
  rcases Nat.le_total p.length.toNat q.length.toNat with hle | hle
  · refine Or.inl ((p.contains_iff q.network).mpr ⟨by rw [hpf, hqf], ?_⟩)
    intro i hi
    rw [hpb i hi, hqb i (by omega)]
  · refine Or.inr ((q.contains_iff p.network).mpr ⟨by rw [hpf, hqf], ?_⟩)
    intro i hi
    rw [hqb i hi, hpb i (by omega)]

/-! ## Bounds -/

/-- `std::memcmp(left, right, size) == 0`, where both arrays are that long. -/
def memcmpEqual (left right : List UInt8) (size : Nat) : Option Bool :=
  if size ≤ left.length ∧ size ≤ right.length then some (decide (left.take size = right.take size))
  else none

/-- `IpPrefix::contains`; `none` is an access at or past the end of an array. -/
def IpPrefix.containsChecked (p : IpPrefix) (address : IpAddress) : Option Bool :=
  if p.network.family ≠ address.family then some false
  else do
    let left := p.network.bytes.toList
    let right := address.bytes.toList
    let whole := p.length.toNat / 8
    let rest := p.length.toNat % 8
    let same ← memcmpEqual left right whole
    if !same then some false
    else if rest = 0 then some true
    else
      let mask : UInt8 := (0xFF : UInt8) <<< (8 - rest).toUInt8
      let a ← left[whole]?
      let b ← right[whole]?
      some (a &&& mask == b &&& mask)

/-- **Every access is in bounds.** -/
theorem IpPrefix.containsChecked_eq (p : IpPrefix) (a : IpAddress) :
    p.containsChecked a = some (p.contains a) := by
  have hlength := p.length_le
  have hbits := p.network.family.bits_le
  unfold containsChecked contains
  by_cases hfamily : p.network.family ≠ a.family
  · rw [if_pos hfamily, if_pos hfamily]
  · rw [if_neg hfamily, if_neg hfamily]
    have hwhole : p.length.toNat / 8 ≤ 16 := by omega
    have hmemcmp : memcmpEqual p.network.bytes.toList a.bytes.toList (p.length.toNat / 8)
        = some (decide (p.network.bytes.toList.take (p.length.toNat / 8)
          = a.bytes.toList.take (p.length.toNat / 8))) :=
      if_pos (by simpa using hwhole)
    simp only [hmemcmp, Option.bind_eq_bind, Option.bind_some]
    by_cases htake : p.network.bytes.toList.take (p.length.toNat / 8)
        = a.bytes.toList.take (p.length.toNat / 8)
    · simp only [htake, decide_true, Bool.not_true, Bool.false_eq_true, if_false, ne_eq,
        not_true_eq_false]
      by_cases hrest : p.length.toNat % 8 = 0
      · simp [hrest]
      · have hlt := p.whole_lt hrest
        simp [hrest, hlt, Vector.get]
    · simp [htake]

/-! ## Members -/

def IpPrefix.members (p : IpPrefix) : Set IpAddress := {a | p.contains a = true}

/-- A longer prefix whose network lies in a shorter one lies in it. -/
theorem IpPrefix.members_subset {p q : IpPrefix} (h : p.contains q.network = true)
    (hle : p.length.toNat ≤ q.length.toNat) : q.members ⊆ p.members := by
  intro a ha
  obtain ⟨hfamily, hbits⟩ := (p.contains_iff q.network).mp h
  obtain ⟨hfamily', hbits'⟩ := (q.contains_iff a).mp ha
  refine (p.contains_iff a).mpr ⟨hfamily.trans hfamily', fun i hi => ?_⟩
  rw [hbits i hi, hbits' i (Nat.lt_of_lt_of_le hi hle)]

/-- The same when the prefix with the network in it is the longer one. -/
theorem IpPrefix.members_subset_of_longer {p q : IpPrefix} (h : p.contains q.network = true)
    (hle : q.length.toNat ≤ p.length.toNat) : p.members ⊆ q.members := by
  obtain ⟨hfamily, hbits⟩ := (p.contains_iff q.network).mp h
  refine members_subset ((q.contains_iff p.network).mpr ⟨hfamily.symm, fun i hi => ?_⟩) hle
  exact (hbits i (Nat.lt_of_lt_of_le hi hle)).symm

theorem IpPrefix.nested_of_contains {p q : IpPrefix} (h : p.contains q.network = true) :
    p.members ⊆ q.members ∨ q.members ⊆ p.members := by
  rcases Nat.le_total p.length.toNat q.length.toNat with hle | hle
  · exact .inr (members_subset h hle)
  · exact .inl (members_subset_of_longer h hle)

/-- **Nested prefixes** are those of which one contains the other's network. -/
theorem IpPrefix.nested_iff (p q : IpPrefix) :
    (p.members ⊆ q.members ∨ q.members ⊆ p.members) ↔
      (p.contains q.network = true ∨ q.contains p.network = true) := by
  constructor
  · rintro (h | h)
    · exact .inr (h p.contains_network)
    · exact .inl (h q.contains_network)
  · rintro (h | h)
    · exact nested_of_contains h
    · exact (nested_of_contains h).symm

/-- Prefixes that are not nested have no member in common. -/
theorem IpPrefix.nested_or_disjoint (p q : IpPrefix) :
    (p.members ⊆ q.members ∨ q.members ⊆ p.members) ∨ Disjoint p.members q.members := by
  refine Classical.or_iff_not_imp_left.mpr fun hnested => Set.disjoint_left.mpr fun a hp hq => ?_
  exact hnested ((nested_iff p q).mpr (contains_network_of_common hp hq))

/-- **Prefix membership** is bitwise and in bounds, and it nests. -/
theorem IpPrefix.contains_bitwise (p q : IpPrefix) (a : IpAddress) :
    (p.contains a = true ↔
      p.network.family = a.family ∧ ∀ i < p.length.toNat, a.bit i = p.network.bit i) ∧
    p.containsChecked a = some (p.contains a) ∧
    ((p.members ⊆ q.members ∨ q.members ⊆ p.members) ∨ Disjoint p.members q.members) ∧
    ((p.members ⊆ q.members ∨ q.members ⊆ p.members) ↔
      (p.contains q.network = true ∨ q.contains p.network = true)) := by
  refine ⟨?_, p.containsChecked_eq a, p.nested_or_disjoint q, p.nested_iff q⟩
  rw [p.contains_iff a]
  refine and_congr_right fun _ => forall_congr' fun i => forall_congr' fun _ => eq_comm

end UpfPolicy
