/-
UpfPolicy.Domain.Address — addresses, prefixes and port ranges
(`upf/domain/address.hpp`, `src/domain/address.cpp`).

`IpAddress` and `IpPrefix` have private members in the source and are built
only by their default constructors and by `parse`. What every such value
satisfies is a field here: the bytes of an IPv4 address after the fourth
are zero, a prefix is no longer than its family's address, and its host
bits are zero.

`inet_ntop` belongs to the C library, not to this program. It is the
parameter `InetText`; a result that depends on the text it returns says
what it assumes of it.
-/
import UpfPolicy.Domain.Types
import UpfPolicy.Support.Bits

namespace UpfPolicy

open Support

inductive AddressFamily where
  | ipv4
  | ipv6
  deriving DecidableEq, Repr

/-- Number of address bits of a family. -/
def AddressFamily.bits : AddressFamily → Nat
  | .ipv4 => 32
  | .ipv6 => 128

theorem AddressFamily.bits_le (f : AddressFamily) : f.bits ≤ 128 := by
  cases f <;> decide

/-- The text `inet_ntop` writes for an address. -/
class InetText where
  ntop : AddressFamily → Vector UInt8 16 → String

/-! ## Addresses -/

structure IpAddress where
  family : AddressFamily
  bytes : Vector UInt8 16
  ipv4_tail : family = .ipv4 → ∀ i : Fin 16, 4 ≤ i.val → bytes.get i = 0
  deriving DecidableEq, Repr

/-- The default constructor: the IPv4 address `0.0.0.0`. -/
instance : Inhabited IpAddress where
  default := { family := .ipv4, bytes := Vector.replicate 16 0, ipv4_tail := by decide }

def IpAddress.toString [InetText] (a : IpAddress) : String :=
  InetText.ntop a.family a.bytes

/-- Address bit `i`, the most significant bit of the first byte first. -/
def IpAddress.bit (a : IpAddress) (i : Nat) : Bool := bitAt a.bytes.toList i

/-! ## Prefixes -/

structure IpPrefix where
  network : IpAddress
  length : UInt8
  length_le : length.toNat ≤ network.family.bits
  host_bits_zero : ∀ i, length.toNat ≤ i → i < network.family.bits → network.bit i = false

/-- The default constructor: `0.0.0.0/0`. -/
instance : Inhabited IpPrefix where
  default := {
    network := default
    length := 0
    length_le := by decide
    host_bits_zero := by decide }

/-- The byte after the whole bytes of a prefix exists whenever the prefix
has bits in it. -/
theorem IpPrefix.whole_lt (p : IpPrefix) (h : p.length.toNat % 8 ≠ 0) :
    p.length.toNat / 8 < 16 := by
  have hlen := p.length_le
  have hbits := p.network.family.bits_le
  omega

/-- `memcmp` over the whole bytes, then the remaining bits under a mask. The
indices carry their bounds, so no access is past the sixteenth byte. -/
def IpPrefix.contains (p : IpPrefix) (address : IpAddress) : Bool :=
  if p.network.family ≠ address.family then false
  else
    let left := p.network.bytes
    let right := address.bytes
    let whole := p.length.toNat / 8
    let rest := p.length.toNat % 8
    if left.toList.take whole ≠ right.toList.take whole then false
    else if h : rest = 0 then true
    else
      let mask : UInt8 := (0xFF : UInt8) <<< (8 - rest).toUInt8
      left.get ⟨whole, p.whole_lt h⟩ &&& mask == right.get ⟨whole, p.whole_lt h⟩ &&& mask

/-! ## Port ranges -/

structure PortRange where
  first : UInt16 := 0
  last : UInt16 := 65535
  deriving DecidableEq, Repr

def PortRange.valid (r : PortRange) : Bool := decide (r.first ≤ r.last)

def PortRange.contains (r : PortRange) (port : UInt16) : Bool :=
  r.valid && decide (port ≥ r.first) && decide (port ≤ r.last)

end UpfPolicy
