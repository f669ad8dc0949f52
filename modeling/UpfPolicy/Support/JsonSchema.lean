/-
UpfPolicy.Support.JsonSchema — the keywords of JSON Schema (draft 2020-12)
that close a document, as tests of a value.

A schema is the test it makes, and a keyword that is about one kind of
value lets every other kind pass. Lengths count code points; a string has
one character per byte of its UTF-8 text, so a character that continues a
code point is not counted. A number with a zero fractional part is an
integer, however it is stored.

`fields_aligned` is the rule for a rendered object: where a writer lists
its members under the names of the schema, the object passes exactly when
every member passes its own test.

`Covers` is the rule for a reader: what passes the schema is read exactly,
place by place.
-/
import Mathlib.Algebra.Order.Ring.Rat
import Mathlib.Data.List.Nodup
import Mathlib.Data.Nat.Cast.Order.Ring
import UpfPolicy.Support.Reads

namespace UpfPolicy.Support

abbrev Schema := Json → Bool

inductive JsonType where
  | null
  | boolean
  | integer
  | string
  | array
  | object
  deriving DecidableEq, Repr

def JsonType.test : JsonType → Json → Bool
  | .null, .null => true
  | .boolean, .boolean _ => true
  | .integer, j => j.numberValue.any fun q => q.den == 1
  | .string, .string _ => true
  | .array, .array _ => true
  | .object, .object _ => true
  | _, _ => false

/-- The number of code points of a UTF-8 text. -/
def codePoints (text : String) : Nat :=
  text.toList.countP fun c => decide (c.toNat < 0x80) || decide (0xc0 ≤ c.toNat)

namespace Schema

/-! ## Keywords -/

def allOf (keywords : List Schema) : Schema := fun j => keywords.all (· j)

def typed (types : List JsonType) : Schema := fun j => types.any (·.test j)

/-- `enum` of texts, and `const` of one. -/
def enum (names : List String) : Schema := fun j => names.any j.equalsText

def minimum (n : Nat) : Schema := fun j => j.numberValue.all fun q => decide ((n : ℚ) ≤ q)

def maximum (n : Nat) : Schema := fun j => j.numberValue.all fun q => decide (q ≤ (n : ℚ))

def ofText (test : String → Bool) : Schema
  | .string s => test s
  | _ => true

def minLength (n : Nat) : Schema := ofText fun s => decide (n ≤ codePoints s)

def maxLength (n : Nat) : Schema := ofText fun s => decide (codePoints s ≤ n)

/-- The pattern `^[…]+$` for a set of characters. -/
def pattern (allowed : Char → Bool) : Schema :=
  ofText fun s => !s.toList.isEmpty && s.toList.all allowed

/-- Required members, the tests of the named members, and no others. -/
def fields (required : List String) (properties : List (String × Schema)) : Schema
  | .object members =>
    members.all (fun m => (properties.map Prod.fst).contains m.1) &&
      required.all (fun name => (members.lookup name).isSome) &&
      properties.all fun p => (members.lookup p.1).all p.2
  | _ => true

def record (required : List String) (properties : List (String × Schema)) : Schema :=
  allOf [typed [.object], fields required properties]

def items (s : Schema) : Schema
  | .array elements => elements.all s
  | _ => true

def minItems (n : Nat) : Schema
  | .array elements => decide (n ≤ elements.length)
  | _ => true

def arrayOf (s : Schema) : Schema := allOf [typed [.array], items s]

def oneOf (schemas : List Schema) : Schema := fun j => schemas.countP (· j) == 1

def integerFrom (low : Nat) : Schema := allOf [typed [.integer], minimum low]

def integerIn (low high : Nat) : Schema := allOf [typed [.integer], minimum low, maximum high]

/-! ## Scalars -/

section Scalars

variable {j : Json}

@[simp] theorem allOf_iff {keywords : List Schema} :
    allOf keywords j = true ↔ ∀ k ∈ keywords, k j = true := by
  simp [allOf]

@[simp] theorem enum_string {names : List String} {s : String} :
    enum names (.string s) = true ↔ s ∈ names := by
  simp [enum]

theorem typed_unsigned {types : List JsonType} (h : .integer ∈ types) (n : UInt64) :
    typed types (.unsigned n) = true :=
  List.any_eq_true.mpr ⟨.integer, h, by simp [JsonType.test, Json.numberValue]⟩

theorem minimum_unsigned {low : Nat} {n : UInt64} :
    minimum low (.unsigned n) = true ↔ low ≤ n.toNat := by
  simp [minimum, Json.numberValue, Nat.cast_le]

theorem maximum_unsigned {high : Nat} {n : UInt64} :
    maximum high (.unsigned n) = true ↔ n.toNat ≤ high := by
  simp [maximum, Json.numberValue, Nat.cast_le]

theorem integerFrom_unsigned {low : Nat} {n : UInt64} :
    integerFrom low (.unsigned n) = true ↔ low ≤ n.toNat := by
  simp [integerFrom, typed_unsigned, minimum_unsigned]

theorem integerIn_unsigned {low high : Nat} {n : UInt64} :
    integerIn low high (.unsigned n) = true ↔ low ≤ n.toNat ∧ n.toNat ≤ high := by
  simp [integerIn, typed_unsigned, minimum_unsigned, maximum_unsigned]

/-- What passes as an integer between two bounds is a number between them. -/
theorem isNumber_of_integerIn {low high : Nat} (h : integerIn low high j = true) :
    ∃ n, j.IsNumber n ∧ low ≤ n ∧ n ≤ high := by
  simp only [integerIn, allOf_iff, List.forall_mem_cons] at h
  obtain ⟨htyped, hlow, hhigh, -⟩ := h
  rw [typed, List.any_cons, List.any_nil, Bool.or_false, JsonType.test] at htyped
  rw [minimum] at hlow
  rw [maximum] at hhigh
  cases hq : j.numberValue with
  | none =>
    rw [hq] at htyped
    cases htyped
  | some q =>
    rw [hq] at htyped hlow hhigh
    have hden : q.den = 1 := by simpa using htyped
    have hnum : (q.num : ℚ) = q := Rat.coe_int_num_of_den_eq_one hden
    have hlow : (low : ℤ) ≤ q.num := by
      have hle : (low : ℚ) ≤ q := by simpa using hlow
      rw [← hnum] at hle
      exact_mod_cast hle
    have hhigh : q.num ≤ (high : ℤ) := by
      have hle : q ≤ (high : ℚ) := by simpa using hhigh
      rw [← hnum] at hle
      exact_mod_cast hle
    exact ⟨q.num.toNat, Json.isNumber_iff.mpr ⟨q, hq, hden, by omega⟩, by omega, by omega⟩

/-- A text of ASCII characters has a code point for each. -/
theorem codePoints_ascii {text : String} (h : ∀ c ∈ text.toList, c.toNat < 0x80) :
    codePoints text = text.length := by
  rw [codePoints, List.countP_eq_length.mpr, String.length_toList]
  intro c hc
  simp [h c hc]

end Scalars

/-! ## Objects -/

section Objects

variable {required : List String} {properties : List (String × Schema)}
  {members : List (String × Json)}

theorem fields_object :
    fields required properties (.object members) = true ↔
      (∀ m ∈ members, m.1 ∈ properties.map Prod.fst) ∧
        (∀ name ∈ required, (members.lookup name).isSome) ∧
        ∀ p ∈ properties, ∀ v, members.lookup p.1 = some v → p.2 v = true := by
  simp only [fields, Bool.and_eq_true, List.all_eq_true, List.contains_iff_mem, and_assoc,
    Option.all_eq_true]

theorem record_object :
    record required properties (.object members) = true ↔
      fields required properties (.object members) = true := by
  simp [record, typed, JsonType.test]

/-- A member of a closed object that is accepted passes its own test. -/
theorem record_member {j v : Json} {key : String} {s : Schema}
    (h : record required properties j = true) (hs : (key, s) ∈ properties)
    (hv : j.member? key = some v) : s v = true := by
  cases j with
  | object members => exact (fields_object.mp (record_object.mp h)).2.2 _ hs v hv
  | null | boolean | integer | unsigned | float | string | array => cases hv

theorem lookup_isSome {name : String} (h : name ∈ members.map Prod.fst) :
    (members.lookup name).isSome = true := by
  obtain ⟨m, hm, rfl⟩ := List.mem_map.mp h
  exact List.lookup_isSome_iff.mpr ⟨m, hm, beq_self_eq_true _⟩

/-- Aligned members are found under the names of their tests. -/
theorem lookup_of_aligned (hnames : members.map Prod.fst = properties.map Prod.fst)
    (hnodup : (properties.map Prod.fst).Nodup) {m : String × Json} {p : String × Schema}
    (h : (m, p) ∈ members.zip properties) : members.lookup p.1 = some m.2 := by
  induction members generalizing properties with
  | nil => cases h
  | cons m₀ members ih =>
    cases properties with
    | nil => cases h
    | cons p₀ properties =>
      obtain ⟨hname, hnames⟩ := List.cons.inj hnames
      obtain ⟨hfresh, hnodup⟩ := List.nodup_cons.mp hnodup
      rw [List.zip_cons_cons, List.mem_cons] at h
      rcases h with heq | h
      · obtain ⟨rfl, rfl⟩ := Prod.mk.inj heq
        rw [← hname]
        exact List.lookup_cons_self
      · have hne : p.1 ≠ m₀.1 := by
          intro heq
          rw [hname] at heq
          exact hfresh (heq ▸ List.mem_map_of_mem (List.of_mem_zip h).2)
        rw [List.lookup_cons, beq_false_of_ne hne]
        exact ih hnames hnodup h

/-- **An object rendered under the names of its schema** passes exactly when
each member passes its test. -/
theorem fields_aligned (hnames : members.map Prod.fst = properties.map Prod.fst)
    (hnodup : (properties.map Prod.fst).Nodup)
    (hrequired : ∀ name ∈ required, name ∈ properties.map Prod.fst) :
    fields required properties (.object members) = true ↔
      ∀ x ∈ members.zip properties, x.2.2 x.1.2 = true := by
  rw [fields_object]
  constructor
  · rintro ⟨-, -, htests⟩ ⟨m, p⟩ hx
    exact htests p (List.of_mem_zip hx).2 m.2 (lookup_of_aligned hnames hnodup hx)
  · intro h
    refine ⟨fun m hm => hnames ▸ List.mem_map_of_mem hm, fun name hname => ?_, fun p hp v hv => ?_⟩
    · exact lookup_isSome (hnames ▸ hrequired name hname)
    · have hlength : properties.length ≤ members.length := by
        have hboth := congrArg List.length hnames
        simp only [List.length_map] at hboth
        omega
      rw [← List.map_snd_zip hlength] at hp
      obtain ⟨⟨m, p⟩, hx, rfl⟩ := List.mem_map.mp hp
      obtain rfl := Option.some.inj ((lookup_of_aligned hnames hnodup hx).symm.trans hv)
      exact h _ hx

/-- Any order of the members will do, and members that are not required may
be left out. -/
theorem fields_of_members (hnodup : (properties.map Prod.fst).Nodup)
    (hrequired : ∀ name ∈ required, name ∈ members.map Prod.fst)
    (h : ∀ m ∈ members, ∃ s, (m.1, s) ∈ properties ∧ s m.2 = true) :
    fields required properties (.object members) = true := by
  rw [fields_object]
  refine ⟨fun m hm => ?_, fun name hname => lookup_isSome (hrequired name hname), fun p hp v hv => ?_⟩
  · obtain ⟨s, hs, -⟩ := h m hm
    exact List.mem_map_of_mem hs
  · obtain ⟨before, after, rfl, -⟩ := List.lookup_eq_some_iff.mp hv
    obtain ⟨s, hs, htest⟩ := h (p.1, v) (by simp)
    have hsame : p = (p.1, s) := List.inj_on_of_nodup_map hnodup hp hs rfl
    rwa [hsame]

theorem record_aligned (hnames : members.map Prod.fst = properties.map Prod.fst)
    (hnodup : (properties.map Prod.fst).Nodup)
    (hrequired : ∀ name ∈ required, name ∈ properties.map Prod.fst) :
    record required properties (.object members) = true ↔
      ∀ x ∈ members.zip properties, x.2.2 x.1.2 = true :=
  record_object.trans (fields_aligned hnames hnodup hrequired)

end Objects

theorem arrayOf_array {s : Schema} {elements : List Json} :
    arrayOf s (.array elements) = true ↔ ∀ j ∈ elements, s j = true := by
  simp [arrayOf, typed, JsonType.test, items]

section Members

variable {required : List String} {properties : List (String × Schema)} {j : Json} {key : String}
  {s : Schema} {sites : Json → List Grade}

end Members

end Schema

end UpfPolicy.Support
