/-
UpfPolicy.Domain.AddressText — reading addresses and prefixes
(`IpAddress::parse` and `IpPrefix::parse` of `src/domain/address.cpp`).

`inet_pton` belongs to the C library, not to this program. It is the
parameter `InetPton`: the bytes it writes for a text it accepts. A C
function reads a string up to its first null character (`cString`).
-/
import UpfPolicy.Domain.Address

namespace UpfPolicy

open Support

/-- `inet_pton` for the two families; `none` where it does not return 1. -/
class InetPton where
  pton4 : String → Option (Vector UInt8 4)
  pton6 : String → Option (Vector UInt8 16)

/-- `text.c_str()`, as a C function reads it. -/
def cString (text : String) : String := String.ofList (text.toList.takeWhile (· ≠ '\x00'))

/-! ## Addresses -/

/-- The four bytes `inet_pton` writes, over an address of zeros. -/
def IpAddress.ofIpv4 (bytes : Vector UInt8 4) : IpAddress where
  family := .ipv4
  bytes := Vector.ofFn fun i => if h : i.val < 4 then bytes.get ⟨i.val, h⟩ else 0
  ipv4_tail := by
    intro _ i hi
    show (Vector.ofFn _)[i.val] = 0
    rw [Vector.getElem_ofFn, dif_neg (Nat.not_lt.mpr hi)]

def IpAddress.ofIpv6 (bytes : Vector UInt8 16) : IpAddress where
  family := .ipv6
  bytes
  ipv4_tail := nofun

def IpAddress.parse [InetPton] (text : String) : Except String IpAddress :=
  match InetPton.pton4 (cString text) with
  | some bytes => .ok (.ofIpv4 bytes)
  | none =>
    match InetPton.pton6 (cString text) with
    | some bytes => .ok (.ofIpv6 bytes)
    | none => .error "invalid IP address"

/-! ## Prefixes -/

/-- `std::isspace` in the C locale. -/
def isSpace (c : Char) : Bool :=
  c == ' ' || c == '\t' || c == '\n' || c == '\x0b' || c == '\x0c' || c == '\r'

/-- The digits at the front of a text, as a number, and what follows them. -/
def readDigits (value : Nat) : List Char → Nat × List Char
  | [] => (value, [])
  | c :: rest =>
    if c.isDigit then readDigits (10 * value + (c.toNat - '0'.toNat)) rest else (value, c :: rest)

/-- `std::strtol(text, &end, 10)` and what `end` points to: blanks, a sign,
digits. Without a digit nothing is read; a value out of range saturates. -/
def strtol (text : List Char) : Int × List Char :=
  let trimmed := text.dropWhile isSpace
  let (negative, unsigned) := match trimmed with
    | '-' :: rest => (true, rest)
    | '+' :: rest => (false, rest)
    | _ => (false, trimmed)
  if unsigned.head?.any Char.isDigit then
    let (value, rest) := readDigits 0 unsigned
    (if negative then max (-(value : Int)) (-2 ^ 63) else min (value : Int) (2 ^ 63 - 1), rest)
  else (0, text)

/-- The loop over the bits after the prefix. -/
def hostBits (address : IpAddress) (length : Nat) : Bool :=
  (List.range' length (address.family.bits - length)).any fun bit => address.bit bit

theorem hostBits_eq_false {address : IpAddress} {length : Nat}
    (h : hostBits address length = false) {i : Nat} (hle : length ≤ i)
    (hlt : i < address.family.bits) : address.bit i = false := by
  rw [hostBits, List.any_eq_false] at h
  simpa using h i (List.mem_range'_1.mpr ⟨hle, by omega⟩)

def IpPrefix.parse [InetPton] (text : String) : Except String IpPrefix :=
  let networkText := text.toList.takeWhile (· ≠ '/')
  match text.toList.dropWhile (· ≠ '/') with
  | [] => .error "prefix length missing"
  | _ :: lengthText =>
    match IpAddress.parse (String.ofList networkText) with
    | .error e => .error e
    | .ok network =>
      let (length, rest) := strtol (cString (String.ofList lengthText)).toList
      if hlength : rest ≠ [] ∨ length < 0 ∨ length > network.family.bits then
        .error "invalid prefix length"
      else if hhost : hostBits network length.toNat = true then
        .error "prefix contains host bits"
      else
        have hle : length.toNat ≤ network.family.bits := by omega
        have hvalue : (UInt8.ofNat length.toNat).toNat = length.toNat := by
          have hmax := network.family.bits_le
          rw [UInt8.toNat_ofNat']
          exact Nat.mod_eq_of_lt (by omega)
        .ok {
          network
          length := .ofNat length.toNat
          length_le := by rw [hvalue]; exact hle
          host_bits_zero := by
            intro i hi hlt
            rw [hvalue] at hi
            exact hostBits_eq_false (by simpa using hhost) hi hlt }

end UpfPolicy
