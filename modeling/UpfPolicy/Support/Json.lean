/-
UpfPolicy.Support.Json — JSON values, and reading them with an accessor
library that throws.

`Json` has the kinds of `nlohmann::json`: a number is stored unsigned,
signed or as a floating-point value, and an object is a list of members of
which the first with a name counts. A floating-point value is the rational
number it stands for.

Reading a value ends in an `Outcome`: a value, a failure the caller
returns, an exception in flight, or undefined behaviour (the unchecked
access to a member that is not there). The accessors follow version 3.11.3
of the library, its exception texts included. What a conversion of a
floating-point value out of range yields is not defined by the language;
it is the parameter `FloatCast`.
-/
import Mathlib.Algebra.Order.Ring.Nat
import Mathlib.Data.Rat.Defs

namespace UpfPolicy.Support

/-! ## Outcomes -/

inductive Outcome (α : Type) where
  | value (a : α)
  | failed (error : String)
  | threw (what : String)
  | undefined

namespace Outcome

variable {α β : Type}

protected def bind (x : Outcome α) (f : α → Outcome β) : Outcome β :=
  match x with
  | value a => f a
  | failed e => failed e
  | threw w => threw w
  | undefined => undefined

instance : Monad Outcome where
  pure := value
  bind := Outcome.bind

@[simp] theorem value_bind (a : α) (f : α → Outcome β) : (value a >>= f) = f a := rfl

@[simp] theorem failed_bind (e : String) (f : α → Outcome β) : (failed e >>= f) = failed e := rfl

@[simp] theorem threw_bind (w : String) (f : α → Outcome β) : (threw w >>= f) = threw w := rfl

@[simp] theorem undefined_bind (f : α → Outcome β) : (undefined >>= f) = undefined := rfl

/-- **Inversion**: a sequence has a value when both parts have one. -/
theorem bind_eq_value {x : Outcome α} {f : α → Outcome β} {b : β} :
    (x >>= f) = value b ↔ ∃ a, x = value a ∧ f a = value b := by
  cases x with
  | value a => simp
  | failed e => simp
  | threw w => simp
  | undefined => simp

theorem map_eq_value {x : Outcome α} {f : α → β} {b : β} :
    (f <$> x) = value b ↔ ∃ a, x = value a ∧ f a = b := by
  cases x with
  | value a => simp [Functor.map, Outcome.bind]
  | failed e => simp [Functor.map, Outcome.bind]
  | threw w => simp [Functor.map, Outcome.bind]
  | undefined => simp [Functor.map, Outcome.bind]

/-- The value, where there is one. -/
def toOption : Outcome α → Option α
  | value a => some a
  | _ => none

theorem eq_value_of_toOption {x : Outcome α} {a : α} (h : x.toOption = some a) : x = value a := by
  cases x with
  | value b => exact congrArg value (Option.some.inj h)
  | failed e => cases h
  | threw w => cases h
  | undefined => cases h

/-- Return a failed result, or go on with its value. -/
def ofExcept : Except String α → Outcome α
  | .ok a => value a
  | .error e => failed e

theorem ofExcept_eq_value {r : Except String α} {a : α} : ofExcept r = value a ↔ r = .ok a := by
  cases r with
  | ok b => simp [ofExcept]
  | error e => simp [ofExcept]

/-- The result of a function that fails by returning a failure. -/
def result : Outcome α → Outcome (Except String α)
  | value a => value (.ok a)
  | failed e => value (.error e)
  | threw w => threw w
  | undefined => undefined

theorem result_eq_ok {x : Outcome α} {a : α} : x.result = value (.ok a) ↔ x = value a := by
  cases x with
  | value b => simp [result]
  | failed e => simp [result]
  | threw w => simp [result]
  | undefined => simp [result]

/-- A `try` block whose handler returns the text of the exception as a
failure. -/
def rescue : Outcome α → Outcome α
  | threw w => failed w
  | x => x

/-- The two arguments of a call, the second of them evaluated first or last. -/
def both (secondFirst : Bool) (x : Outcome α) (y : Outcome β) : Outcome (α × β) :=
  if secondFirst then do
    let b ← y
    let a ← x
    return (a, b)
  else do
    let a ← x
    let b ← y
    return (a, b)

/-- The body of a loop over a list, with its results in order. -/
def each (body : α → Outcome β) : List α → Outcome (List β)
  | [] => value []
  | a :: rest => do
    let b ← body a
    let bs ← each body rest
    return b :: bs

theorem each_eq_value {body : α → Outcome β} {as : List α} {bs : List β}
    (h : each body as = value bs) : List.Forall₂ (fun a b => body a = value b) as bs := by
  induction as generalizing bs with
  | nil =>
    cases h
    exact .nil
  | cons a as ih =>
    obtain ⟨b, hb, h⟩ := bind_eq_value.mp h
    obtain ⟨bs', hbs, h⟩ := bind_eq_value.mp h
    cases h
    exact .cons hb (ih hbs)

end Outcome

/-! ## Values -/

inductive Json where
  | null
  | boolean (b : Bool)
  | integer (i : Int64)
  | unsigned (n : UInt64)
  | float (q : ℚ)
  | string (s : String)
  | array (elements : List Json)
  | object (members : List (String × Json))

/-- What a conversion to an unsigned integer of so many bits makes of a
floating-point value that does not fit. -/
class FloatCast where
  outOfRange : Nat → ℚ → Nat

namespace Json

def typeName : Json → String
  | null => "null"
  | boolean _ => "boolean"
  | integer _ | unsigned _ | float _ => "number"
  | string _ => "string"
  | array _ => "array"
  | object _ => "object"

/-- The text of a type error. -/
def typeError (id : Nat) (message : String) (j : Json) : String :=
  "[json.exception.type_error." ++ toString id ++ "] " ++ message ++ j.typeName

/-- The member of an object with a name. -/
def member? : Json → String → Option Json
  | object members, key => members.lookup key
  | _, _ => none

/-- The mathematical value of a number stored as an integer. -/
def integer? : Json → Option ℤ
  | integer i => some i.toInt
  | unsigned n => some n.toNat
  | _ => none

/-- The member of an object, as an integer. -/
def number? (j : Json) (key : String) : Option ℤ := (j.member? key).bind integer?

/-! ## Access -/

/-- `contains(key)`. -/
def contains (j : Json) (key : String) : Bool := (j.member? key).isSome

/-- `at(key)`. -/
def atKey (j : Json) (key : String) : Outcome Json :=
  match j with
  | object members =>
    match members.lookup key with
    | some v => .value v
    | none => .threw ("[json.exception.out_of_range.403] key '" ++ key ++ "' not found")
  | _ => .threw (typeError 304 "cannot use at() with " j)

theorem atKey_eq_value {j v : Json} {key : String} (h : j.atKey key = .value v) :
    j.member? key = some v := by
  cases j with
  | object members =>
    rw [atKey] at h
    cases hlookup : members.lookup key with
    | some w =>
      rw [hlookup] at h
      cases h
      exact hlookup
    | none =>
      rw [hlookup] at h
      cases h
  | null | boolean | integer | unsigned | float | string | array => cases h

/-- `operator[](key)` of a constant value, which does not check that the
member is there. -/
def bracket (j : Json) (key : String) : Outcome Json :=
  match j with
  | object members =>
    match members.lookup key with
    | some v => .value v
    | none => .undefined
  | _ => .threw (typeError 305 "cannot use operator[] with a string argument with " j)

/-- What a loop `for (i = 0; i < j.size(); ++i)` reads as `j[i]`: nothing of
a null or an empty object, the elements of an array, and of everything
else, whose size is positive, the first access throws. -/
def elements : Json → Outcome (List Json)
  | null | object [] => .value []
  | array elements => .value elements
  | j => .threw (typeError 305 "cannot use operator[] with a numeric argument with " j)

/-- The comparison `j == text`. -/
def equalsText (j : Json) (text : String) : Bool :=
  match j with
  | string s => s == text
  | _ => false

/-! ## Conversion -/

def getString (j : Json) : Outcome String :=
  match j with
  | string s => .value s
  | _ => .threw (typeError 302 "type must be string, but is " j)

theorem getString_eq_value {j : Json} {s : String} (h : j.getString = .value s) : j = string s := by
  cases j with
  | string t =>
    cases h
    rfl
  | null | boolean | integer | unsigned | float | array | object => cases h

section Numbers

variable [FloatCast]

/-- A floating-point value is cut off towards zero. -/
def castFloat (bits : Nat) (q : ℚ) : Nat :=
  let cut := q.num.tdiv q.den
  if 0 ≤ cut ∧ cut < 2 ^ bits then cut.toNat else FloatCast.outOfRange bits q

/-- `static_cast` of a number to an unsigned integer of so many bits. -/
def castNumber (bits : Nat) : Json → Option Nat
  | unsigned n => some (n.toNat % 2 ^ bits)
  | integer i => some (i.toInt % 2 ^ bits).toNat
  | float q => some (castFloat bits q)
  | _ => none

/-- `get<std::uint64_t>()`, the type a number is stored in. -/
def getUInt64 (j : Json) : Outcome UInt64 :=
  match j.castNumber 64 with
  | some n => .value (.ofNat n)
  | none => .threw (typeError 302 "type must be number, but is " j)

/-- `get<T>()` for a narrower type, which converts a boolean as well. -/
def getNarrow (bits : Nat) (j : Json) : Outcome Nat :=
  match j with
  | boolean b => .value b.toNat
  | _ =>
    match j.castNumber bits with
    | some n => .value n
    | none => .threw (typeError 302 "type must be number, but is " j)

def getUInt32 (j : Json) : Outcome UInt32 := UInt32.ofNat <$> j.getNarrow 32

def getUInt16 (j : Json) : Outcome UInt16 := UInt16.ofNat <$> j.getNarrow 16

def getUInt8 (j : Json) : Outcome UInt8 := UInt8.ofNat <$> j.getNarrow 8

end Numbers

/-- `value(key, text)`. -/
def valueOr (j : Json) (key text : String) : Outcome String :=
  match j with
  | object members =>
    match members.lookup key with
    | some v => v.getString
    | none => .value text
  | _ => .threw (typeError 306 "cannot use value() with " j)

end Json

end UpfPolicy.Support
