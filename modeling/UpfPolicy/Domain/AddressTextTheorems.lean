/-
UpfPolicy.Domain.AddressTextTheorems — the texts `IpPrefix::parse` accepts.

A prefix is written as an address, a slash and a decimal length
(`PrefixText`). The parser hands both parts to the C library, which reads
no further than a null character, and `strtol` takes blanks and a sign
before the digits, and no digits at all for a zero. `parsesAs_iff` says what
is accepted because of that (`LoosePrefix`), and `prefix_exact_iff` that
the grammar is exceeded by nothing else.

A text is a list of its bytes, each as the character with that number.
-/
import Mathlib.Data.List.TakeWhile
import UpfPolicy.Domain.AddressText

namespace UpfPolicy

/-! ## Digits -/

/-- A run of digits, not empty. -/
def Digits (text : List Char) : Prop := text ≠ [] ∧ ∀ c ∈ text, c.isDigit = true

theorem readDigits_digits {text : List Char} (h : ∀ c ∈ text, c.isDigit = true) (value : Nat) :
    readDigits value text = (Nat.ofDigitChars 10 text value, []) := by
  induction text generalizing value with
  | nil => rfl
  | cons c rest ih =>
    rw [readDigits, if_pos (h c List.mem_cons_self), ih fun d hd => h d (List.mem_cons_of_mem c hd),
      Nat.ofDigitChars_cons]

theorem digits_of_readDigits {text : List Char} {value : Nat} (h : (readDigits value text).2 = []) :
    ∀ c ∈ text, c.isDigit = true := by
  induction text generalizing value with
  | nil => exact fun c hc => by cases hc
  | cons c rest ih =>
    rw [readDigits] at h
    by_cases hdigit : c.isDigit = true
    · rw [if_pos hdigit] at h
      exact List.forall_mem_cons.mpr ⟨hdigit, ih h⟩
    · rw [if_neg hdigit] at h
      cases h

theorem isSpace_of_isDigit {c : Char} (h : c.isDigit = true) : isSpace c = false := by
  rw [Bool.eq_false_iff]
  intro hspace
  simp only [isSpace, Bool.or_eq_true, beq_iff_eq] at hspace
  rcases hspace with ((((rfl | rfl) | rfl) | rfl) | rfl) | rfl <;> exact absurd h (by decide)

/-! ## Lengths -/

/-- The texts `strtol` reads to their end, as numbers that are not negative. -/
inductive LooseLength : List Char → Nat → Prop where
  | empty : LooseLength [] 0
  | unsigned {blanks digits : List Char} (hblanks : ∀ c ∈ blanks, isSpace c = true)
      (hdigits : Digits digits) : LooseLength (blanks ++ digits) (Nat.ofDigitChars 10 digits 0)
  | plus {blanks digits : List Char} (hblanks : ∀ c ∈ blanks, isSpace c = true)
      (hdigits : Digits digits) :
      LooseLength (blanks ++ '+' :: digits) (Nat.ofDigitChars 10 digits 0)
  | minus {blanks digits : List Char} (hblanks : ∀ c ∈ blanks, isSpace c = true)
      (hdigits : Digits digits) (hzero : Nat.ofDigitChars 10 digits 0 = 0) :
      LooseLength (blanks ++ '-' :: digits) 0

/-- The sign and the digits that `strtol` finds behind the blanks. -/
def signed (trimmed : List Char) : Bool × List Char :=
  match trimmed with
  | '-' :: rest => (true, rest)
  | '+' :: rest => (false, rest)
  | _ => (false, trimmed)

theorem strtol_eq (text : List Char) : strtol text =
    let (negative, unsigned) := signed (text.dropWhile isSpace)
    if unsigned.head?.any Char.isDigit then
      let (value, rest) := readDigits 0 unsigned
      (if negative then max (-(value : Int)) (-2 ^ 63) else min (value : Int) (2 ^ 63 - 1), rest)
    else (0, text) := rfl

theorem signed_cases {trimmed digits : List Char} {negative : Bool}
    (h : signed trimmed = (negative, digits)) :
    (trimmed = '-' :: digits ∧ negative = true) ∨ (trimmed = '+' :: digits ∧ negative = false) ∨
      (trimmed = digits ∧ negative = false) := by
  unfold signed at h
  split at h
  · cases h
    exact .inl ⟨rfl, rfl⟩
  · cases h
    exact .inr (.inl ⟨rfl, rfl⟩)
  · cases h
    exact .inr (.inr ⟨rfl, rfl⟩)

/-- Digits carry no sign. -/
theorem signed_digits {digits : List Char} (h : Digits digits) : signed digits = (false, digits) := by
  obtain ⟨hne, hall⟩ := h
  unfold signed
  split
  · exact absurd (hall '-' List.mem_cons_self) (by decide)
  · exact absurd (hall '+' List.mem_cons_self) (by decide)
  · rfl

theorem dropWhile_blanks {blanks rest : List Char} (hblanks : ∀ c ∈ blanks, isSpace c = true)
    {c : Char} (hrest : rest.head? = some c) (hc : isSpace c = false) :
    (blanks ++ rest).dropWhile isSpace = rest := by
  rw [List.dropWhile_append_of_pos hblanks]
  cases rest with
  | nil => rfl
  | cons d rest =>
    cases hrest
    exact List.dropWhile_cons_of_neg (by simp [hc])

/-- `strtol` on blanks, a sign and digits. -/
theorem strtol_signed {text digits : List Char} {negative : Bool}
    (hsigned : signed (text.dropWhile isSpace) = (negative, digits)) (hdigits : Digits digits) :
    strtol text = (if negative then max (-(Nat.ofDigitChars 10 digits 0 : Int)) (-2 ^ 63)
      else min (Nat.ofDigitChars 10 digits 0 : Int) (2 ^ 63 - 1), []) := by
  have hhead : digits.head?.any Char.isDigit = true := by
    obtain ⟨hne, hall⟩ := hdigits
    cases digits with
    | nil => exact absurd rfl hne
    | cons c rest => exact hall c List.mem_cons_self
  rw [strtol_eq, hsigned]
  dsimp only
  rw [if_pos hhead, readDigits_digits hdigits.2]

theorem looseLength_of_strtol {text : List Char} {n : Nat} (hsmall : n < 2 ^ 63 - 1)
    (h : strtol text = ((n : Int), [])) : LooseLength text n := by
  cases hsigned : signed (text.dropWhile isSpace) with
  | mk negative digits =>
    by_cases hhead : digits.head?.any Char.isDigit = true
    · have hdigits : Digits digits := by
        rw [strtol_eq, hsigned] at h
        dsimp only at h
        rw [if_pos hhead] at h
        refine ⟨?_, digits_of_readDigits (congrArg Prod.snd h)⟩
        rintro rfl
        cases hhead
      rw [strtol_signed hsigned hdigits] at h
      have hvalue := congrArg Prod.fst h
      dsimp only at hvalue
      have hblanks : ∀ c ∈ text.takeWhile isSpace, isSpace c = true := fun c => List.mem_takeWhile_imp
      rw [← List.takeWhile_append_dropWhile (p := isSpace) (l := text)]
      rcases signed_cases hsigned with ⟨htrimmed, rfl⟩ | ⟨htrimmed, rfl⟩ | ⟨htrimmed, rfl⟩
      · rw [if_pos rfl] at hvalue
        have hzero : Nat.ofDigitChars 10 digits 0 = 0 := by omega
        obtain rfl : n = 0 := by omega
        rw [htrimmed]
        exact .minus hblanks hdigits hzero
      · rw [if_neg (by decide)] at hvalue
        obtain rfl : n = Nat.ofDigitChars 10 digits 0 := by omega
        rw [htrimmed]
        exact .plus hblanks hdigits
      · rw [if_neg (by decide)] at hvalue
        obtain rfl : n = Nat.ofDigitChars 10 digits 0 := by omega
        rw [htrimmed]
        exact .unsigned hblanks hdigits
    · -- nothing is read, so the text was at its end
      rw [strtol_eq, hsigned] at h
      dsimp only at h
      rw [if_neg hhead] at h
      obtain ⟨hzero, rfl⟩ := Prod.mk.inj h
      obtain rfl : n = 0 := by omega
      exact .empty

theorem strtol_of_looseLength {text : List Char} {n : Nat} (hsmall : n < 2 ^ 63 - 1)
    (h : LooseLength text n) : strtol text = ((n : Int), []) := by
  cases h with
  | empty => rfl
  | @unsigned blanks digits hblanks hdigits =>
    obtain ⟨c, hhead, hc⟩ : ∃ c, digits.head? = some c ∧ c.isDigit = true := by
      cases digits with
      | nil => exact absurd rfl hdigits.1
      | cons c rest => exact ⟨c, rfl, hdigits.2 c List.mem_cons_self⟩
    rw [strtol_signed (by rw [dropWhile_blanks hblanks hhead (isSpace_of_isDigit hc),
      signed_digits hdigits]) hdigits, if_neg (by decide), Int.min_eq_left (by omega)]
  | @plus blanks digits hblanks hdigits =>
    rw [strtol_signed (by rw [dropWhile_blanks hblanks rfl (by decide)]; rfl) hdigits,
      if_neg (by decide), Int.min_eq_left (by omega)]
  | @minus blanks digits hblanks hdigits hzero =>
    rw [strtol_signed (by rw [dropWhile_blanks hblanks rfl (by decide)]; rfl) hdigits, if_pos rfl,
      hzero]
    rfl

/-- **What `strtol` reads to the end**, below the largest number. -/
theorem strtol_eq_iff {text : List Char} {n : Nat} (hsmall : n < 2 ^ 63 - 1) :
    strtol text = ((n : Int), []) ↔ LooseLength text n :=
  ⟨looseLength_of_strtol hsmall, strtol_of_looseLength hsmall⟩

/-- A plain number is its digits. -/
theorem LooseLength.value {text : List Char} {n : Nat} (h : LooseLength text n)
    (hdigits : Digits text) : n = Nat.ofDigitChars 10 text 0 := by
  obtain ⟨hne, hall⟩ := hdigits
  cases h with
  | empty => exact absurd rfl hne
  | @unsigned blanks digits hblanks _ =>
    cases blanks with
    | nil => rfl
    | cons c rest =>
      have hspace := hblanks c List.mem_cons_self
      rw [isSpace_of_isDigit (hall c (by simp))] at hspace
      cases hspace
  | plus => exact absurd (hall '+' (by simp)) (by decide)
  | minus => exact absurd (hall '-' (by simp)) (by decide)

/-! ## Parts of a text -/

/-- What a C function reads of a text. -/
def beforeNull (text : List Char) : List Char := text.takeWhile (· ≠ '\x00')

theorem beforeNull_eq_self {text : List Char} (h : '\x00' ∉ text) : beforeNull text = text :=
  List.takeWhile_eq_self_iff.mpr fun _ hc => decide_eq_true fun hnull => h (hnull ▸ hc)

theorem cString_ofList (text : List Char) :
    cString (String.ofList text) = String.ofList (beforeNull text) := by
  rw [cString, String.toList_ofList, beforeNull]

theorem cString_of_terminated {text : String} (h : '\x00' ∉ text.toList) : cString text = text := by
  show String.ofList (beforeNull text.toList) = text
  rw [beforeNull_eq_self h, String.ofList_toList]

theorem Digits.terminated {text : List Char} (h : Digits text) : '\x00' ∉ text :=
  fun hmem => absurd (h.2 _ hmem) (by decide)

/-- A text is cut at its first slash. -/
structure CutAt (text : String) (address length : List Char) : Prop where
  text_eq : text.toList = address ++ '/' :: length
  address_slash : '/' ∉ address

section Cut

variable {text : String} {address length : List Char}

theorem CutAt.takeWhile (h : CutAt text address length) :
    text.toList.takeWhile (· ≠ '/') = address := by
  rw [h.text_eq, List.takeWhile_append_of_pos]
  · simp
  · exact fun c hc => decide_eq_true fun hslash => h.address_slash (hslash ▸ hc)

theorem CutAt.dropWhile (h : CutAt text address length) :
    text.toList.dropWhile (· ≠ '/') = '/' :: length := by
  rw [h.text_eq, List.dropWhile_append_of_pos]
  · simp
  · exact fun c hc => decide_eq_true fun hslash => h.address_slash (hslash ▸ hc)

theorem CutAt.unique {address' length' : List Char} (h : CutAt text address length)
    (h' : CutAt text address' length') : address' = address ∧ length' = length :=
  ⟨h'.takeWhile.symm.trans h.takeWhile,
    (List.cons.inj (h'.dropWhile.symm.trans h.dropWhile)).2⟩

theorem cutAt_of_dropWhile {c : Char} (h : text.toList.dropWhile (· ≠ '/') = c :: length) :
    CutAt text (text.toList.takeWhile (· ≠ '/')) length := by
  have hc : c = '/' := by
    have hhead := List.head?_dropWhile_not (fun d => decide (d ≠ '/')) text.toList
    rw [h] at hhead
    simpa using hhead
  subst hc
  refine ⟨?_, fun hmem => ?_⟩
  · rw [← h, List.takeWhile_append_dropWhile]
  · exact absurd (List.mem_takeWhile_imp hmem) (by decide)

end Cut

/-! ## Prefixes -/

theorem hostBits_iff {network : IpAddress} {length : Nat} :
    hostBits network length = false ↔
      ∀ i, length ≤ i → i < network.family.bits → network.bit i = false := by
  refine ⟨fun h i => hostBits_eq_false h, fun h => ?_⟩
  rw [hostBits, List.any_eq_false]
  intro i hi
  obtain ⟨hle, hlt⟩ := List.mem_range'_1.mp hi
  rw [h i hle (by omega)]
  decide

/-- A length that fits an address fits a byte. -/
theorem toNat_length {network : IpAddress} {length : Nat} (h : length ≤ network.family.bits) :
    (UInt8.ofNat length).toNat = length := by
  have hmax := network.family.bits_le
  rw [UInt8.toNat_ofNat']
  exact Nat.mod_eq_of_lt (by omega)

section Prefixes

variable [InetPton]

/-- The address that a text is, as an IPv4 text or else as an IPv6 text. -/
def IsAddressText (text : List Char) (a : IpAddress) : Prop :=
  (∃ bytes, InetPton.pton4 (String.ofList text) = some bytes ∧ a = .ofIpv4 bytes) ∨
    InetPton.pton4 (String.ofList text) = none ∧
      ∃ bytes, InetPton.pton6 (String.ofList text) = some bytes ∧ a = .ofIpv6 bytes

theorem addressParse_iff {text : List Char} {a : IpAddress} :
    IpAddress.parse (String.ofList text) = .ok a ↔ IsAddressText (beforeNull text) a := by
  rw [IpAddress.parse, cString_ofList, IsAddressText]
  cases InetPton.pton4 (String.ofList (beforeNull text)) with
  | some bytes => simp [eq_comm]
  | none =>
    cases InetPton.pton6 (String.ofList (beforeNull text)) with
    | some bytes => simp [eq_comm]
    | none => simp

/-- The length fits the address, and the bits behind it are zero. -/
structure NoHostBits (network : IpAddress) (length : Nat) : Prop where
  fits : length ≤ network.family.bits
  zero : ∀ i, length ≤ i → i < network.family.bits → network.bit i = false

/-- **The grammar**: an address, a slash and the digits of the length. -/
def PrefixText (text : String) (network : IpAddress) (length : Nat) : Prop :=
  ∃ address digits, CutAt text address digits ∧
    ('\x00' ∉ address ∧ IsAddressText address network) ∧
    (Digits digits ∧ Nat.ofDigitChars 10 digits 0 = length) ∧ NoHostBits network length

/-- What the C library makes of the two parts. -/
def LoosePrefix (text : String) (network : IpAddress) (length : Nat) : Prop :=
  ∃ address digits, CutAt text address digits ∧ IsAddressText (beforeNull address) network ∧
    LooseLength (beforeNull digits) length ∧ NoHostBits network length

/-- The parser returns a prefix with this network and this length. -/
def ParsesAs (text : String) (network : IpAddress) (length : Nat) : Prop :=
  ∃ p, IpPrefix.parse text = .ok p ∧ p.network = network ∧ p.length.toNat = length

theorem loosePrefix_of_parse {text : String} {p : IpPrefix} (h : IpPrefix.parse text = .ok p) :
    LoosePrefix text p.network p.length.toNat := by
  unfold IpPrefix.parse at h
  dsimp only at h
  cases hcut : text.toList.dropWhile (· ≠ '/') with
  | nil =>
    rw [hcut] at h
    cases h
  | cons c digits =>
    rw [hcut] at h
    dsimp only at h
    cases haddress : IpAddress.parse (String.ofList (text.toList.takeWhile (· ≠ '/'))) with
    | error e =>
      rw [haddress] at h
      cases h
    | ok network =>
      rw [haddress] at h
      dsimp only at h
      split at h
      · cases h
      · rename_i hlength
        split at h
        · cases h
        · rename_i hhost
          have hp := Except.ok.inj h
          have hnetwork : network = p.network := congrArg IpPrefix.network hp
          have hbyte := congrArg IpPrefix.length hp
          dsimp only at hbyte
          rw [cString_ofList, String.toList_ofList] at hlength hhost hbyte
          cases hread : strtol (beforeNull digits) with
          | mk length rest =>
            rw [hread] at hlength hhost hbyte
            simp only [not_or, not_not, Int.not_lt] at hlength
            obtain ⟨rfl, hpositive, hmax⟩ := hlength
            have hfits : length.toNat ≤ network.family.bits := by omega
            have hbits := network.family.bits_le
            have hvalue : p.length.toNat = length.toNat := by
              rw [← hbyte, toNat_length hfits]
            rw [hvalue, ← hnetwork]
            refine ⟨_, digits, cutAt_of_dropWhile hcut, addressParse_iff.mp haddress,
              (strtol_eq_iff (by omega)).mp ?_, hfits,
              hostBits_iff.mp (Bool.eq_false_of_not_eq_true hhost)⟩
            rw [hread, Int.toNat_of_nonneg hpositive]

theorem parse_of_loosePrefix {text : String} {network : IpAddress} {length : Nat}
    (h : LoosePrefix text network length) : ParsesAs text network length := by
  obtain ⟨address, digits, hcut, haddress, hdigits, hbits⟩ := h
  have hmax := network.family.bits_le
  have hfits := hbits.fits
  have hread : strtol (cString (String.ofList digits)).toList = ((length : Int), []) := by
    rw [cString_ofList, String.toList_ofList]
    exact (strtol_eq_iff (by omega)).mpr hdigits
  have hlength : ¬ (([] : List Char) ≠ [] ∨ (length : Int) < 0 ∨
      (length : Int) > network.family.bits) := by
    simp only [not_or, not_not]
    exact ⟨trivial, by omega, by omega⟩
  have hhost : ¬ hostBits network (length : Int).toNat = true := by
    rw [Int.toNat_natCast, hostBits_iff.mpr hbits.zero]
    decide
  unfold ParsesAs IpPrefix.parse
  dsimp only
  rw [hcut.takeWhile, hcut.dropWhile, addressParse_iff.mpr haddress]
  dsimp only
  rw [hread]
  dsimp only
  rw [dif_neg hlength, dif_neg hhost]
  exact ⟨_, rfl, rfl, toNat_length hfits⟩

/-- **What the parser accepts.** -/
theorem parsesAs_iff {text : String} {network : IpAddress} {length : Nat} :
    ParsesAs text network length ↔ LoosePrefix text network length := by
  refine ⟨?_, parse_of_loosePrefix⟩
  rintro ⟨p, hparse, rfl, rfl⟩
  exact loosePrefix_of_parse hparse

/-! ## The grammar -/

/-- The text is read as a prefix although its address holds a null character,
or its length is not a plain number: it is empty, or has blanks or a sign
before the digits or a null character behind them. -/
def LooselyWritten (text : String) : Prop :=
  ∃ address digits network length, CutAt text address digits ∧
    (IsAddressText (beforeNull address) network ∧ LooseLength (beforeNull digits) length ∧
      NoHostBits network length) ∧
    ('\x00' ∈ address ∨ ¬ Digits digits)

theorem prefixText_loose {text : String} {network : IpAddress} {length : Nat}
    (h : PrefixText text network length) : LoosePrefix text network length := by
  obtain ⟨address, digits, hcut, ⟨hnull, haddress⟩, ⟨hdigits, rfl⟩, hbits⟩ := h
  refine ⟨address, digits, hcut, ?_, ?_, hbits⟩
  · rwa [beforeNull_eq_self hnull]
  · rw [beforeNull_eq_self hdigits.terminated]
    exact @LooseLength.unsigned [] digits (List.forall_mem_nil _) hdigits

theorem prefixText_of_loose {text : String} {network : IpAddress} {length : Nat}
    (h : LoosePrefix text network length) (hplain : ¬ LooselyWritten text) :
    PrefixText text network length := by
  obtain ⟨address, digits, hcut, haddress, hlength, hbits⟩ := h
  have hstrict : ¬ ('\x00' ∈ address ∨ ¬ Digits digits) := fun hloose =>
    hplain ⟨address, digits, network, length, hcut, ⟨haddress, hlength, hbits⟩, hloose⟩
  rw [not_or, not_not] at hstrict
  obtain ⟨hnull, hdigits⟩ := hstrict
  rw [beforeNull_eq_self hnull] at haddress
  rw [beforeNull_eq_self hdigits.terminated] at hlength
  exact ⟨address, digits, hcut, ⟨hnull, haddress⟩, ⟨hdigits, (hlength.value hdigits).symm⟩, hbits⟩

/-- **The parser accepts exactly the grammar**, with the address and the
length that are written, on the texts that are not loosely written. -/
theorem prefix_exact_iff (text : String) :
    (∀ network length, ParsesAs text network length ↔ PrefixText text network length) ↔
      ¬ LooselyWritten text := by
  constructor
  · rintro hexact ⟨address, digits, network, length, hcut, ⟨haddress, hlength, hbits⟩, hloose⟩
    have hparses : ParsesAs text network length :=
      parsesAs_iff.mpr ⟨address, digits, hcut, haddress, hlength, hbits⟩
    obtain ⟨address', digits', hcut', ⟨hnull, -⟩, ⟨hdigits, -⟩, -⟩ :=
      (hexact network length).mp hparses
    obtain ⟨rfl, rfl⟩ := hcut.unique hcut'
    rcases hloose with hmem | hnot
    · exact hnull hmem
    · exact hnot hdigits
  · intro hplain network length
    rw [parsesAs_iff]
    exact ⟨fun h => prefixText_of_loose h hplain, prefixText_loose⟩

end Prefixes

/-- `inet_pton` on a dotted quad. -/
def dottedQuad (text : List Char) : Option (Vector UInt8 4) :=
  match readDigits 0 text with
  | (a, '.' :: text) =>
    match readDigits 0 text with
    | (b, '.' :: text) =>
      match readDigits 0 text with
      | (c, '.' :: text) =>
        match readDigits 0 text with
        | (d, []) =>
          if a < 256 ∧ b < 256 ∧ c < 256 ∧ d < 256 then some #v[.ofNat a, .ofNat b, .ofNat c, .ofNat d]
          else none
        | _ => none
      | _ => none
    | _ => none
  | _ => none

@[reducible] def dottedPton : InetPton where
  pton4 text := dottedQuad text.toList
  pton6 _ := none

/-- Without a digit behind the slash, the length is zero. -/
theorem prefix_exact_empty :
    ¬ ∀ text network length,
      @ParsesAs dottedPton text network length ↔ @PrefixText dottedPton text network length := by
  intro h
  have hcut : CutAt "0.0.0.0/" "0.0.0.0".toList [] := ⟨by decide, by decide⟩
  have hparses : @ParsesAs dottedPton "0.0.0.0/" (.ofIpv4 #v[0, 0, 0, 0]) 0 :=
    @parse_of_loosePrefix dottedPton _ _ _ ⟨_, _, hcut, .inl ⟨_, by decide +kernel, rfl⟩, .empty,
      ⟨Nat.zero_le _, by decide +kernel⟩⟩
  obtain ⟨address, digits, hcut', -, ⟨⟨hne, -⟩, -⟩, -⟩ := (h _ _ _).mp hparses
  exact hne (hcut.unique hcut').2

end UpfPolicy
