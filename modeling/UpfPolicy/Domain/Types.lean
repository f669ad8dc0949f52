/-
UpfPolicy.Domain.Types — the value types of `upf/domain/types.hpp`.

Machine integers keep their width (`UInt8` … `UInt64`), and `std::size_t`
is `UInt64`: arithmetic wraps where the source's wraps, so an overflow is
a fact to prove and not a modelling choice. `std::string` is `String` with
one character per byte; every byte string is such a value, and the program
only concatenates strings, compares them and tests them for emptiness.
`Optional<T>` is `Option T`, and `Result<void>` is `Except String Unit`
with the source's error text.
-/
import Mathlib.Algebra.Order.Ring.Nat
import Mathlib.Data.List.Sort

namespace UpfPolicy

/-! ## Checked arithmetic -/

/-- `std::numeric_limits<std::uint64_t>::max()`, also the maximum of
`std::size_t`. -/
def uint64Max : UInt64 := 18446744073709551615

/-- The out-parameter of the source is the value under `some`. `max() - a`
and `max() / a` cannot wrap, so the guards compare them as numbers. -/
def checkedAdd (a b : UInt64) : Option UInt64 :=
  if b.toNat > uint64Max.toNat - a.toNat then none else some (a + b)

def checkedMultiply (a b : UInt64) : Option UInt64 :=
  if a ≠ 0 ∧ b.toNat > uint64Max.toNat / a.toNat then none else some (a * b)

@[simp] theorem uint64Max_toNat : uint64Max.toNat = 2 ^ 64 - 1 := rfl

/-- The guard of `checkedAdd` is the exact overflow condition. -/
theorem checkedAdd_guard (a b : UInt64) :
    b.toNat > uint64Max.toNat - a.toNat ↔ 2 ^ 64 ≤ a.toNat + b.toNat := by
  have ha := a.toNat_lt
  rw [uint64Max_toNat]
  omega

/-- The guard of `checkedMultiply` is the exact overflow condition. -/
theorem checkedMultiply_guard (a b : UInt64) :
    (a ≠ 0 ∧ b.toNat > uint64Max.toNat / a.toNat) ↔ 2 ^ 64 ≤ a.toNat * b.toNat := by
  by_cases h : a = 0
  · subst h; simp
  · have hpos : 0 < a.toNat := by
      rcases Nat.eq_zero_or_pos a.toNat with hz | hp
      · exact absurd (UInt64.toNat_inj.mp hz) h
      · exact hp
    rw [gt_iff_lt, uint64Max_toNat, Nat.div_lt_iff_lt_mul hpos, Nat.mul_comm b.toNat]
    exact ⟨fun hlt => by omega, fun hle => ⟨h, by omega⟩⟩

theorem checkedAdd_eq_none {a b : UInt64} :
    checkedAdd a b = none ↔ 2 ^ 64 ≤ a.toNat + b.toNat := by
  rw [← checkedAdd_guard, checkedAdd]
  split <;> simp_all

theorem checkedMultiply_eq_none {a b : UInt64} :
    checkedMultiply a b = none ↔ 2 ^ 64 ≤ a.toNat * b.toNat := by
  rw [← checkedMultiply_guard, checkedMultiply]
  split <;> simp_all

/-- A sum that `checkedAdd` returns is the sum of the unbounded integers. -/
theorem checkedAdd_toNat {a b c : UInt64} (h : checkedAdd a b = some c) :
    c.toNat = a.toNat + b.toNat := by
  have hlt : ¬ 2 ^ 64 ≤ a.toNat + b.toNat := by
    rw [← checkedAdd_eq_none, h]; simp
  unfold checkedAdd at h
  split at h
  · cases h
  · cases h; rw [UInt64.toNat_add]; exact Nat.mod_eq_of_lt (by omega)

theorem checkedMultiply_toNat {a b c : UInt64} (h : checkedMultiply a b = some c) :
    c.toNat = a.toNat * b.toNat := by
  have hlt : ¬ 2 ^ 64 ≤ a.toNat * b.toNat := by
    rw [← checkedMultiply_eq_none, h]; simp
  unfold checkedMultiply at h
  split at h
  · cases h
  · cases h; rw [UInt64.toNat_mul]; exact Nat.mod_eq_of_lt (by omega)

/-! ## Identifiers and enumerations -/

structure RuleId where
  value : UInt32 := 0
  deriving DecidableEq, Repr

def RuleId.valid (id : RuleId) : Bool := id.value != 0

abbrev PdrId := RuleId
abbrev FarId := RuleId
abbrev QerId := RuleId
abbrev UrrId := RuleId

inductive Interface where
  | n3
  | n6
  deriving DecidableEq, Repr

inductive TransportProtocol where
  | tcp
  | udp
  | icmp
  | icmpv6
  deriving DecidableEq, Repr

/-- `OPEN` is `opened`: `open` is a keyword of Lean. -/
inductive GateStatus where
  | opened
  | closed
  deriving DecidableEq, Repr

inductive FarAction where
  | forward
  | drop
  deriving DecidableEq, Repr

inductive TunnelOperation where
  | tunnelNone
  | add
  | remove
  deriving DecidableEq, Repr

inductive AdapterOutcome where
  | success
  | delayedSuccess
  | transientFailure
  | permanentFailure
  deriving DecidableEq, Repr

inductive ConvergenceStatus where
  | empty
  | converged
  | divergent
  deriving DecidableEq, Repr

/-! ## Capacity limits -/

structure CapacityLimits where
  controlQueue : UInt64 := 128
  packetQueue : UInt64 := 1024
  reconciliationQueue : UInt64 := 128
  reports : UInt64 := 1024
  results : UInt64 := 2048
  events : UInt64 := 8192
  sinkPackets : UInt64 := 2048
  sessions : UInt64 := 16
  rulesPerType : UInt64 := 256
  deriving DecidableEq, Repr

end UpfPolicy
