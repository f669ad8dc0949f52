/-
UpfPolicy.Support.Reads — what a reader makes of a document, place by place.

A reader visits the places of a document one after the other. At each it
takes what the document states there (`exact`), goes on with something the
document does not state (`lenient`), stops with an error (`refused`), or
accesses a member that is not there (`unchecked`). The first place that
does not let it go on decides how it ends.

`Reads x gs F` says that the computation `x` visits places of the grades
`gs`, and that `F` is what the document states: the grades are computed
from the document alone, `F` is a statement about the value read, and the
two meet where every place is exact. There is one rule for each way of
composing readers, so that the grades and the statement of a large reader
follow its text.

Where every place is taken or refused, the reading hinges on the refused
ones (`Grade.Hinges`): it takes what the document states, or stops.
-/
import Mathlib.Data.List.Forall2
import UpfPolicy.Support.Json

namespace UpfPolicy.Support

/-! ## Grades and endings -/

inductive Grade where
  | exact
  | lenient
  | refused
  | unchecked
  deriving DecidableEq, Repr

inductive Ending where
  | returns
  | stops
  | undefined
  deriving DecidableEq, Repr

/-- A failure and an exception both stop a reader. -/
def Outcome.ending {α : Type} : Outcome α → Ending
  | .value _ => .returns
  | .failed _ | .threw _ => .stops
  | .undefined => .undefined

/-- The first place that does not let the reader go on decides. -/
def Grade.ending : List Grade → Ending
  | [] => .returns
  | .exact :: rest | .lenient :: rest => Grade.ending rest
  | .refused :: _ => .stops
  | .unchecked :: _ => .undefined

def Grade.AllExact (gs : List Grade) : Prop := ∀ g ∈ gs, g = .exact

instance (gs : List Grade) : Decidable (Grade.AllExact gs) :=
  inferInstanceAs (Decidable (∀ g ∈ gs, g = .exact))

namespace Grade

variable {gs hs : List Grade}

@[simp] theorem allExact_nil : AllExact [] := by simp [AllExact]

theorem allExact_singleton {g : Grade} : AllExact [g] ↔ g = .exact := by simp [AllExact]

@[simp] theorem allExact_append : AllExact (gs ++ hs) ↔ AllExact gs ∧ AllExact hs := by
  simp [AllExact, or_imp, forall_and]

@[simp] theorem allExact_cons {g : Grade} : AllExact (g :: gs) ↔ g = .exact ∧ AllExact gs := by
  simp [AllExact]

theorem ending_append_returns (h : ending gs = .returns) : ending (gs ++ hs) = ending hs := by
  induction gs with
  | nil => rfl
  | cons g gs ih =>
    cases g with
    | exact => exact ih h
    | lenient => exact ih h
    | refused => cases h
    | unchecked => cases h

theorem ending_append_of_ne (h : ending gs ≠ .returns) : ending (gs ++ hs) = ending gs := by
  induction gs with
  | nil => exact absurd rfl h
  | cons g gs ih =>
    cases g with
    | exact => exact ih h
    | lenient => exact ih h
    | refused => rfl
    | unchecked => rfl

/-- The places of two arguments of a call. -/
def both (secondFirst : Bool) (gs hs : List Grade) : List Grade :=
  if secondFirst then hs ++ gs else gs ++ hs

/-- Reading the places hinges on `P`: each is taken or refused, and all are
taken where `P` holds. -/
structure Hinges (gs : List Grade) (P : Prop) : Prop where
  tested : ∀ g ∈ gs, g = .exact ∨ g = .refused
  iff : AllExact gs ↔ P

theorem Hinges.append {P Q : Prop} (hgs : Hinges gs P) (hhs : Hinges hs Q) :
    Hinges (gs ++ hs) (P ∧ Q) where
  tested := List.forall_mem_append.mpr ⟨hgs.tested, hhs.tested⟩
  iff := allExact_append.trans (and_congr hgs.iff hhs.iff)

/-- Places that are taken or refused let a reader pass, or stop it. -/
theorem Hinges.ending {P : Prop} (h : Hinges gs P) :
    P ∧ ending gs = .returns ∨ ¬ P ∧ ending gs = .stops := by
  have htested := h.tested
  rw [← h.iff]
  clear h
  induction gs with
  | nil => exact .inl ⟨allExact_nil, rfl⟩
  | cons g gs ih =>
    obtain ⟨hg, hgs⟩ := List.forall_mem_cons.mp htested
    rcases hg with rfl | rfl
    · obtain ⟨hall, hreturns⟩ | ⟨hnot, hstops⟩ := ih hgs
      · exact .inl ⟨allExact_cons.mpr ⟨rfl, hall⟩, hreturns⟩
      · exact .inr ⟨fun hall => hnot (allExact_cons.mp hall).2, hstops⟩
    · exact .inr ⟨fun hall => Grade.noConfusion (allExact_cons.mp hall).1, rfl⟩

end Grade

namespace Outcome

variable {α β γ : Type}

theorem bind_assoc (x : Outcome α) (f : α → Outcome β) (g : β → Outcome γ) :
    (x >>= f) >>= g = x >>= fun a => f a >>= g := by
  cases x with
  | value a => rfl
  | failed e => rfl
  | threw w => rfl
  | undefined => rfl

theorem ending_eq_returns {x : Outcome α} : x.ending = .returns ↔ ∃ a, x = value a := by
  cases x with
  | value a => simp [ending]
  | failed e => simp [ending]
  | threw w => simp [ending]
  | undefined => simp [ending]

theorem ending_bind_of_ne {x : Outcome α} {f : α → Outcome β} (h : x.ending ≠ .returns) :
    (x >>= f).ending = x.ending := by
  cases x with
  | value a => exact absurd rfl h
  | failed e => rfl
  | threw w => rfl
  | undefined => rfl

/-- A `try` block fails where its body stops. -/
theorem rescue_eq_failed {x : Outcome α} : (∃ e, x.rescue = failed e) ↔ x.ending = .stops := by
  cases x with
  | value a => simp [rescue, ending]
  | failed e => simp [rescue, ending]
  | threw w => simp [rescue, ending]
  | undefined => simp [rescue, ending]

@[simp] theorem rescue_eq_value {x : Outcome α} {a : α} : x.rescue = value a ↔ x = value a := by
  cases x with
  | value b => simp [rescue]
  | failed e => simp [rescue]
  | threw w => simp [rescue]
  | undefined => simp [rescue]

end Outcome

/-! ## Readers -/

/-- The computation `x` reads places of the grades `gs`; `F` is what the
document states. -/
structure Reads {α : Type} (x : Outcome α) (gs : List Grade) (F : α → Prop) : Prop where
  ends : x.ending = Grade.ending gs
  exact : Grade.AllExact gs → ∃ a, x = .value a ∧ F a
  only : ∀ a, F a → Grade.AllExact gs

namespace Reads

variable {α β : Type} {x : Outcome α} {f : α → Outcome β} {gs hs : List Grade} {F F' : α → Prop}
  {G : α → β → Prop}

/-- **A value that was read** is what the document states exactly when every
place is exact. -/
theorem states_iff (h : Reads x gs F) {a : α} (hx : x = .value a) : F a ↔ Grade.AllExact gs := by
  constructor
  · exact h.only a
  · intro hall
    obtain ⟨b, hb, hF⟩ := h.exact hall
    cases hx.symm.trans hb
    exact hF

/-- A reader returns what its document states, where that is one value. -/
theorem eq_value (h : Reads x gs F) {a : α} (ha : F a) (hunique : ∀ b, F b → b = a) :
    x = .value a := by
  obtain ⟨b, hb, hF⟩ := h.exact (h.only a ha)
  rw [hb, hunique b hF]

/-- How a `try` block around a reader ends. -/
theorem rescue_cases (h : Reads x gs F) :
    (∃ a, x.rescue = .value a ∧ Grade.ending gs = .returns) ∨
      (∃ e, x.rescue = .failed e ∧ Grade.ending gs = .stops) ∨
      x.rescue = .undefined ∧ Grade.ending gs = .undefined := by
  have hends := h.ends
  cases x with
  | value a => exact .inl ⟨a, rfl, hends.symm⟩
  | failed e => exact .inr (.inl ⟨e, rfl, hends.symm⟩)
  | threw w => exact .inr (.inl ⟨w, rfl, hends.symm⟩)
  | undefined => exact .inr (.inr ⟨rfl, hends.symm⟩)

theorem pure (a : α) : Reads (Pure.pure a) [] (· = a) :=
  ⟨rfl, fun _ => ⟨a, rfl, rfl⟩, fun _ _ => Grade.allExact_nil⟩

/-- Another way to say what the document states. -/
theorem congr (h : Reads x gs F) (hto : ∀ a, F a → F' a) (hfrom : ∀ a, F' a → ∃ b, F b) :
    Reads x gs F' where
  ends := h.ends
  exact hall := by
    obtain ⟨a, hx, hF⟩ := h.exact hall
    exact ⟨a, hx, hto a hF⟩
  only a hF' := by
    obtain ⟨b, hF⟩ := hfrom a hF'
    exact h.only b hF

/-- One reader after the other. -/
theorem bind (hx : Reads x gs F) (hf : ∀ a, Reads (f a) hs (G a)) :
    Reads (x >>= f) (gs ++ hs) fun b => ∃ a, F a ∧ G a b where
  ends := by
    by_cases hret : x.ending = .returns
    · rw [Grade.ending_append_returns (hx.ends ▸ hret)]
      obtain ⟨a, rfl⟩ := Outcome.ending_eq_returns.mp hret
      exact (hf a).ends
    · rw [Outcome.ending_bind_of_ne hret, Grade.ending_append_of_ne (hx.ends ▸ hret)]
      exact hx.ends
  exact hall := by
    obtain ⟨hgs, hhs⟩ := Grade.allExact_append.mp hall
    obtain ⟨a, rfl, hF⟩ := hx.exact hgs
    obtain ⟨b, hb, hG⟩ := (hf a).exact hhs
    exact ⟨b, hb, a, hF, hG⟩
  only b := by
    rintro ⟨a, hF, hG⟩
    exact Grade.allExact_append.mpr ⟨hx.only a hF, (hf a).only b hG⟩

/-- One reader after two. -/
theorem seq {γ : Type} {g : β → Outcome γ} {F : β → Prop} {G : β → γ → Prop}
    (hx : Reads (x >>= f) gs F) (hg : ∀ b, Reads (g b) hs (G b)) :
    Reads (x >>= fun a => f a >>= g) (gs ++ hs) fun c => ∃ b, F b ∧ G b c :=
  Outcome.bind_assoc x f g ▸ hx.bind hg

/-- A reader whose value is used without reading further. -/
theorem map (g : α → β) (h : Reads x gs F) : Reads (g <$> x) gs fun b => ∃ a, F a ∧ b = g a := by
  have hbind := h.bind fun a => Reads.pure (g a)
  rwa [List.append_nil] at hbind

/-- The two arguments of a call, in either order. -/
theorem both {y : Outcome β} {F' : β → Prop} (secondFirst : Bool) (hx : Reads x gs F)
    (hy : Reads y hs F') :
    Reads (Outcome.both secondFirst x y) (Grade.both secondFirst gs hs)
      fun p => F p.1 ∧ F' p.2 := by
  cases secondFirst with
  | false =>
    refine (hx.bind fun a => hy.map fun b => (a, b)).congr ?_ ?_
    · rintro _ ⟨a, ha, b, hb, rfl⟩
      exact ⟨ha, hb⟩
    · rintro ⟨a, b⟩ ⟨ha, hb⟩
      exact ⟨_, a, ha, b, hb, rfl⟩
  | true =>
    refine (hy.bind fun b => hx.map fun a => (a, b)).congr ?_ ?_
    · rintro _ ⟨b, hb, a, ha, rfl⟩
      exact ⟨ha, hb⟩
    · rintro ⟨a, b⟩ ⟨ha, hb⟩
      exact ⟨_, b, hb, a, ha, rfl⟩

/-- A place the reader always passes, and takes a value from without a
further test. -/
theorem note {g : Grade} (hg : g = .exact ∨ g = .lenient) (h : Reads x gs F) :
    Reads x (g :: gs) fun a => g = .exact ∧ F a where
  ends := by
    rw [h.ends]
    rcases hg with rfl | rfl <;> rfl
  exact hall := by
    obtain ⟨hexact, hrest⟩ := Grade.allExact_cons.mp hall
    obtain ⟨a, hx, hF⟩ := h.exact hrest
    exact ⟨a, hx, hexact, hF⟩
  only a hF := Grade.allExact_cons.mpr ⟨hF.1, h.only a hF.2⟩

/-- A place the reader does not pass. -/
theorem halt {g : Grade}
    (h : g = .refused ∧ x.ending = .stops ∨ g = .unchecked ∧ x.ending = .undefined)
    (hF : ∀ a, ¬ F a) : Reads x ([g] ++ hs) F where
  ends := by
    obtain ⟨rfl, hend⟩ | ⟨rfl, hend⟩ := h
    · exact hend
    · exact hend
  exact hall := by
    have hexact := hall g List.mem_cons_self
    obtain ⟨rfl, -⟩ | ⟨rfl, -⟩ := h
    · cases hexact
    · cases hexact
  only a hFa := absurd hFa (hF a)

/-- A loop over a list reads the places of its elements in order. -/
theorem each {body : α → Outcome β} {sites : α → List Grade}
    (h : ∀ a, Reads (body a) (sites a) (G a)) (as : List α) :
    Reads (Outcome.each body as) (as.flatMap sites) (List.Forall₂ G as) := by
  induction as with
  | nil =>
    exact (Reads.pure []).congr (fun bs hbs => hbs ▸ .nil) fun bs _ => ⟨[], rfl⟩
  | cons a as ih =>
    have hrest (b : β) := ih.map (b :: ·)
    refine ((h a).bind hrest).congr ?_ ?_
    · rintro _ ⟨b, hb, bs, hbs, rfl⟩
      exact .cons hb hbs
    · intro cs hcs
      cases hcs with
      | cons hb hbs => exact ⟨_, _, hb, _, hbs, rfl⟩

end Reads

/-! ## Members -/

namespace Json

/-- The places of a member read with `at`. -/
def atSites (item : Json) (key : String) (sites : Json → List Grade) : List Grade :=
  match item.member? key with
  | some v => sites v
  | none => [.refused]

/-- The places of a member read with an unchecked `operator[]`. -/
def bracketSites (item : Json) (key : String) (sites : Json → List Grade) : List Grade :=
  match item with
  | object members =>
    match members.lookup key with
    | some v => sites v
    | none => [.unchecked]
  | _ => [.refused]

/-- The places of the elements of a member that is a list. -/
def listSites (sites : Json → List Grade) : Json → List Grade
  | null | object [] => []
  | array elements => elements.flatMap sites
  | _ => [.refused]

/-- The member under a key states a value. -/
def States {α : Type} (item : Json) (key : String) (S : Json → α → Prop) (a : α) : Prop :=
  ∃ v, item.member? key = some v ∧ S v a

/-- The member under a key states a value, or neither is there. -/
def StatesOptional {α : Type} (item : Json) (key : String) (S : Json → α → Prop) :
    Option α → Prop
  | none => item.member? key = none
  | some a => item.States key S a

/-- The member under a key states a value, or is left out for a default. -/
def StatesOr {α : Type} (item : Json) (key : String) (S : Json → α → Prop) (default a : α) : Prop :=
  item.States key S a ∨ item.member? key = none ∧ a = default

theorem statesOptional_map {α β : Type} {item : Json} {key : String} {S : Json → β → Prop}
    {g : α → β} {o : Option α} :
    item.StatesOptional key S (o.map g) ↔ item.StatesOptional key (fun v a => S v (g a)) o := by
  cases o with
  | none => exact Iff.rfl
  | some a => exact Iff.rfl

/-- A list states its elements in order; a null and an empty object are
empty lists. -/
def Lists {α : Type} (S : Json → α → Prop) (v : Json) (as : List α) : Prop :=
  ∃ items, v.elements = .value items ∧ List.Forall₂ S items as

/-- What holds of every element of a member that is a list. -/
def EachOf (root : Json) (key : String) (P : Json → Prop) : Prop :=
  ∀ v items, root.member? key = some v → v.elements = .value items → ∀ item ∈ items, P item

/-- A list that states its elements in one way states them in another where
each element allows it. -/
theorem states_lists_iff {α : Type} {root : Json} {key : String} {S S' : Json → α → Prop}
    {P : Json → Prop} {as : List α} (h : root.States key (Lists S) as)
    (hS : ∀ item a, S item a → (S' item a ↔ P item)) :
    root.States key (Lists S') as ↔ root.EachOf key P := by
  obtain ⟨v, hv, items, hitems, hall⟩ := h
  have hsplit : List.Forall₂ S' items as ↔ ∀ item ∈ items, P item := by
    constructor
    · intro hall'
      have hboth := hall.mp (fun item a ha ha' => And.intro ((hS item a ha).mp ha') ha) hall'
      exact ((List.forall₂_and_left items as).mp hboth).1
    · intro heach
      have hboth := (List.forall₂_and_left items as).mpr ⟨heach, hall⟩
      exact hboth.imp fun item a ha => (hS item a ha.2).mpr ha.1
  constructor
  · rintro ⟨_, hv', _, hitems', hall'⟩ w ws hw hws
    obtain rfl := Option.some.inj (hv.symm.trans hv')
    obtain rfl := Option.some.inj (hv.symm.trans hw)
    obtain rfl := Outcome.value.inj (hitems.symm.trans hitems')
    obtain rfl := Outcome.value.inj (hitems.symm.trans hws)
    exact hsplit.mp hall'
  · intro heach
    exact ⟨v, hv, items, hitems, hsplit.mpr (heach v items hv hitems)⟩

/-- The elements of a list may be changed into what the list states in
another way. -/
theorem states_lists_map {α β : Type} {root : Json} {key : String} {S : Json → α → Prop}
    {S' : Json → β → Prop} {f : α → β} {as : List α} (h : root.States key (Lists S) as)
    (hS : ∀ item a, S item a → S' item (f a)) : root.States key (Lists S') (as.map f) := by
  obtain ⟨v, hv, items, hitems, hall⟩ := h
  exact ⟨v, hv, items, hitems, List.forall₂_map_right_iff.mpr (hall.imp hS)⟩

theorem atKey_eq (item : Json) (key : String) :
    (∃ v, item.member? key = some v ∧ item.atKey key = .value v) ∨
      item.member? key = none ∧ ∃ w, item.atKey key = .threw w := by
  cases item with
  | object members =>
    cases h : members.lookup key with
    | none => exact .inr ⟨h, _, by rw [atKey, h]⟩
    | some v => exact .inl ⟨v, h, by rw [atKey, h]⟩
  | null | boolean | integer | unsigned | float | string | array => exact .inr ⟨rfl, _, rfl⟩

/-- An unchecked access throws on what is not an object, and is undefined
on an object without the member. -/
theorem bracket_eq (item : Json) (key : String) (sites : Json → List Grade) :
    (∃ v, item.member? key = some v ∧ item.bracket key = .value v ∧
        item.bracketSites key sites = sites v) ∨
      item.member? key = none ∧
        ((∃ w, item.bracket key = .threw w) ∧ item.bracketSites key sites = [.refused] ∨
          item.bracket key = .undefined ∧ item.bracketSites key sites = [.unchecked]) := by
  cases item with
  | object members =>
    cases h : members.lookup key with
    | none => exact .inr ⟨h, .inr ⟨by rw [bracket, h], by rw [bracketSites, h]⟩⟩
    | some v => exact .inl ⟨v, h, by rw [bracket, h], by rw [bracketSites, h]⟩
  | null | boolean | integer | unsigned | float | string | array =>
    exact .inr ⟨rfl, .inl ⟨⟨_, rfl⟩, rfl⟩⟩

end Json

namespace Reads

open Json

variable {α β : Type} {item : Json} {key : String} {sites : Json → List Grade} {hs : List Grade}
  {f : Json → Outcome β} {G : Json → β → Prop}

/-- What the members of a document state, where there is one. -/
theorem of_member {v : Json} {x : Outcome β} {gs : List Grade} (hv : item.member? key = some v)
    (h : Reads x gs (G v)) : Reads x gs (item.States key G) := by
  refine h.congr (fun b hb => ⟨v, hv, hb⟩) ?_
  rintro b ⟨w, hw, hb⟩
  obtain rfl := Option.some.inj (hv.symm.trans hw)
  exact ⟨b, hb⟩

theorem not_states {b : β} (hnone : item.member? key = none) : ¬ item.States key G b := by
  rintro ⟨w, hw, -⟩
  rw [hnone] at hw
  cases hw

theorem atKey (h : ∀ v, Reads (f v) (sites v ++ hs) (G v)) :
    Reads (item.atKey key >>= f) (item.atSites key sites ++ hs) (item.States key G) := by
  unfold atSites
  obtain ⟨v, hmember, hvalue⟩ | ⟨hmember, w, hthrew⟩ := item.atKey_eq key
  · rw [hmember, hvalue]
    exact of_member hmember (h v)
  · rw [hmember, hthrew]
    exact halt (.inl ⟨rfl, rfl⟩) fun b => not_states hmember

theorem bracket (h : ∀ v, Reads (f v) (sites v ++ hs) (G v)) :
    Reads (item.bracket key >>= f) (item.bracketSites key sites ++ hs) (item.States key G) := by
  obtain ⟨v, hmember, hvalue, hsites⟩ | ⟨hmember, ⟨⟨w, hthrew⟩, hsites⟩ | ⟨hundef, hsites⟩⟩ :=
    item.bracket_eq key sites
  · rw [hsites, hvalue]
    exact of_member hmember (h v)
  · rw [hsites, hthrew]
    exact halt (.inl ⟨rfl, rfl⟩) fun b => not_states hmember
  · rw [hsites, hundef]
    exact halt (.inr ⟨rfl, rfl⟩) fun b => not_states hmember

/-- The same where nothing is read after the member. -/
theorem atKey_last (h : ∀ v, Reads (f v) (sites v) (G v)) :
    Reads (item.atKey key >>= f) (item.atSites key sites) (item.States key G) := by
  rw [← List.append_nil (item.atSites key sites)]
  exact atKey fun v => (List.append_nil (sites v)).symm ▸ h v

theorem bracket_last (h : ∀ v, Reads (f v) (sites v) (G v)) :
    Reads (item.bracket key >>= f) (item.bracketSites key sites) (item.States key G) := by
  rw [← List.append_nil (item.bracketSites key sites)]
  exact bracket fun v => (List.append_nil (sites v)).symm ▸ h v

/-- A list is read element by element. -/
theorem list {body : Json → Outcome α} {S : Json → α → Prop}
    (h : ∀ v, Reads (body v) (sites v) (S v)) (v : Json) :
    Reads (v.elements >>= Outcome.each body) (listSites sites v) (v.Lists S) := by
  have hitems {items : List Json} (hv : v.elements = .value items) :
      Reads (v.elements >>= Outcome.each body) (items.flatMap sites) (v.Lists S) := by
    rw [hv]
    refine (each h items).congr (fun as has => ⟨items, hv, has⟩) ?_
    rintro as ⟨items', hv', has⟩
    obtain rfl := Outcome.value.inj (hv.symm.trans hv')
    exact ⟨as, has⟩
  have hother {w : String} (hv : v.elements = .threw w) :
      Reads (v.elements >>= Outcome.each body) [.refused] (v.Lists S) := by
    rw [hv]
    refine halt (.inl ⟨rfl, rfl⟩) ?_
    rintro as ⟨items, hv', -⟩
    cases hv.symm.trans hv'
  cases v with
  | null => exact hitems rfl
  | array items => exact hitems rfl
  | object members =>
    cases members with
    | nil => exact hitems rfl
    | cons first rest => exact hother rfl
  | boolean | integer | unsigned | float | string => exact hother rfl

end Reads

/-! ## Numbers -/

namespace Json

/-- The mathematical value of a number. -/
def numberValue : Json → Option ℚ
  | integer i => some i.toInt
  | unsigned n => some n.toNat
  | float q => some q
  | _ => none

/-- A number with a value. -/
def IsNumber (v : Json) (n : Nat) : Prop := v.numberValue = some (n : ℚ)

def isBoolean : Json → Bool
  | boolean _ => true
  | _ => false

/-- The grade of reading an unsigned integer of so many bits: every number
is converted, and a boolean to the types narrower than the library's own. -/
def uintGrade (bits : Nat) (v : Json) : Grade :=
  match v.numberValue with
  | some q => if q.den = 1 ∧ 0 ≤ q.num ∧ q.num < 2 ^ bits then .exact else .lenient
  | none => if v.isBoolean && decide (bits < 64) then .lenient else .refused

def uintSites (bits : Nat) (v : Json) : List Grade := [v.uintGrade bits]

theorem isNumber_iff {v : Json} {n : Nat} :
    v.IsNumber n ↔ ∃ q, v.numberValue = some q ∧ q.den = 1 ∧ q.num = n := by
  constructor
  · intro h
    exact ⟨_, h, by simp, by simp⟩
  · rintro ⟨q, hq, hden, hnum⟩
    rw [IsNumber, hq]
    exact congrArg some (Rat.ext (by simpa using hnum) (by simpa using hden))

theorem IsNumber.uintGrade_eq {v : Json} {n bits : Nat} (h : v.IsNumber n) (hlt : n < 2 ^ bits) :
    v.uintGrade bits = .exact := by
  obtain ⟨q, hq, hden, hnum⟩ := isNumber_iff.mp h
  rw [uintGrade, hq]
  refine if_pos ⟨hden, by omega, ?_⟩
  rw [hnum]
  exact_mod_cast hlt

section Casts

variable [FloatCast]

/-- A number is converted, and to its own value where that fits. -/
theorem castNumber_of_number {v : Json} {q : ℚ} (bits : Nat) (h : v.numberValue = some q) :
    ∃ m, v.castNumber bits = some m ∧
      (q.den = 1 ∧ 0 ≤ q.num ∧ q.num < 2 ^ bits → v.IsNumber m ∧ m < 2 ^ bits) := by
  cases v with
  | integer i =>
    obtain rfl := Option.some.inj h
    refine ⟨_, rfl, fun ⟨_, hnonneg, hlt⟩ => ?_⟩
    rw [Rat.num_intCast] at hnonneg hlt
    rw [Int.emod_eq_of_lt hnonneg hlt]
    refine ⟨isNumber_iff.mpr ⟨_, rfl, by simp, ?_⟩, ?_⟩
    · rw [Rat.num_intCast, Int.toNat_of_nonneg hnonneg]
    · exact (Int.toNat_lt hnonneg).mpr (by exact_mod_cast hlt)
  | unsigned n =>
    obtain rfl := Option.some.inj h
    refine ⟨_, rfl, fun ⟨_, _, hlt⟩ => ?_⟩
    rw [Rat.num_natCast] at hlt
    rw [Nat.mod_eq_of_lt (by exact_mod_cast hlt)]
    exact ⟨rfl, by exact_mod_cast hlt⟩
  | float r =>
    obtain rfl := Option.some.inj h
    refine ⟨_, rfl, fun ⟨hden, hnonneg, hlt⟩ => ?_⟩
    have hcut : r.num.tdiv r.den = r.num := by rw [hden]; exact Int.tdiv_one _
    rw [castFloat, hcut, if_pos ⟨hnonneg, hlt⟩]
    refine ⟨isNumber_iff.mpr ⟨r, rfl, hden, (Int.toNat_of_nonneg hnonneg).symm⟩, ?_⟩
    exact (Int.toNat_lt hnonneg).mpr (by exact_mod_cast hlt)
  | null | boolean | string | array | object => cases h

theorem castNumber_of_not_number {v : Json} (bits : Nat) (h : v.numberValue = none) :
    v.castNumber bits = none := by
  cases v with
  | integer | unsigned | float => cases h
  | null | boolean | string | array | object => rfl

end Casts

end Json

namespace Reads

open Json

variable [FloatCast]

/-- **Reading a number** of a type of so many bits. -/
theorem uint {T : Type} {g : Json → Outcome T} {toNat : T → Nat} {ofNat : Nat → T} {bits : Nat}
    (hlt : ∀ n, toNat n < 2 ^ bits) (hof : ∀ m < 2 ^ bits, toNat (ofNat m) = m)
    (hnumber : ∀ v m, v.castNumber bits = some m → g v = .value (ofNat m))
    (hother : ∀ v, v.castNumber bits = none →
      (g v).ending = if v.isBoolean && decide (bits < 64) then .returns else .stops)
    (v : Json) : Reads (g v) (uintSites bits v) fun n => v.IsNumber (toNat n) where
  ends := by
    rw [uintSites, uintGrade]
    cases hq : v.numberValue with
    | some q =>
      obtain ⟨m, hm, -⟩ := castNumber_of_number bits hq
      rw [hnumber v m hm]
      dsimp only
      split <;> rfl
    | none =>
      rw [hother v (castNumber_of_not_number bits hq)]
      dsimp only
      split <;> rfl
  exact hall := by
    have hgrade := Grade.allExact_singleton.mp hall
    rw [uintGrade] at hgrade
    cases hq : v.numberValue with
    | some q =>
      obtain ⟨m, hm, hfits⟩ := castNumber_of_number bits hq
      rw [hq] at hgrade
      dsimp only at hgrade
      split at hgrade
      · rename_i hq'
        obtain ⟨hv, hmlt⟩ := hfits hq'
        exact ⟨_, hnumber v m hm, by rwa [hof m hmlt]⟩
      · cases hgrade
    | none =>
      rw [hq] at hgrade
      dsimp only at hgrade
      split at hgrade <;> cases hgrade
  only n hn := Grade.allExact_singleton.mpr (hn.uintGrade_eq (hlt n))

theorem getUInt64 (v : Json) :
    Reads v.getUInt64 (uintSites 64 v) fun n => v.IsNumber n.toNat := by
  refine uint UInt64.toNat_lt (fun _ => UInt64.toNat_ofNat_of_lt') (fun v m hm => ?_) ?_ v
  · rw [Json.getUInt64, hm]
  · intro v hv
    rw [Json.getUInt64, hv]
    simp [Outcome.ending]

/-- The narrower types are converted alike. -/
theorem narrow {T : Type} {toNat : T → Nat} {ofNat : Nat → T} {bits : Nat} (hbits : bits < 64)
    (hlt : ∀ n, toNat n < 2 ^ bits) (hof : ∀ m < 2 ^ bits, toNat (ofNat m) = m) (v : Json) :
    Reads (ofNat <$> v.getNarrow bits) (uintSites bits v) fun n => v.IsNumber (toNat n) := by
  refine uint (g := fun v => ofNat <$> v.getNarrow bits) hlt hof (fun v m hm => ?_) ?_ v
  · cases v with
    | boolean b => cases hm
    | integer | unsigned | float | null | string | array | object =>
      dsimp only [Json.getNarrow]
      rw [hm]
      rfl
  · intro v hv
    rw [decide_eq_true hbits, Bool.and_true]
    cases v with
    | boolean b => rfl
    | integer | unsigned | float | null | string | array | object =>
      dsimp only [Json.getNarrow]
      rw [hv]
      rfl

theorem getUInt32 (v : Json) : Reads v.getUInt32 (uintSites 32 v) fun n => v.IsNumber n.toNat :=
  narrow (by decide) UInt32.toNat_lt (fun _ => UInt32.toNat_ofNat_of_lt') v

theorem getUInt16 (v : Json) : Reads v.getUInt16 (uintSites 16 v) fun n => v.IsNumber n.toNat :=
  narrow (by decide) UInt16.toNat_lt (fun _ => UInt16.toNat_ofNat_of_lt') v

theorem getUInt8 (v : Json) : Reads v.getUInt8 (uintSites 8 v) fun n => v.IsNumber n.toNat :=
  narrow (by decide) UInt8.toNat_lt (fun _ => UInt8.toNat_ofNat_of_lt') v

end Reads

/-! ## Texts and names -/

namespace Json

def stringSites : Json → List Grade
  | string _ => [.exact]
  | _ => [.refused]

/-- The places of a text that has to parse. -/
def parsedSites {α : Type} (parse : String → Except String α) : Json → List Grade
  | string s =>
    match parse s with
    | .ok _ => [.exact]
    | .error _ => [.refused]
  | _ => [.refused]

/-- A text that parses as a value. -/
def IsParsed {α : Type} (parse : String → Except String α) (v : Json) (a : α) : Prop :=
  ∃ s, v = string s ∧ parse s = .ok a

/-- A grade for a member that is one of some names; what is none of them
is passed. -/
def nameGrade (names : List String) (v : Json) : Grade :=
  if names.any v.equalsText then .exact else .lenient

theorem nameGrade_cases (names : List String) (v : Json) :
    v.nameGrade names = .exact ∨ v.nameGrade names = .lenient := by
  unfold nameGrade
  split
  · exact .inl rfl
  · exact .inr rfl

@[simp] theorem equalsText_iff {v : Json} {text : String} :
    v.equalsText text = true ↔ v = .string text := by
  cases v with
  | string s => simp [equalsText]
  | null | boolean | integer | unsigned | float | array | object => simp [equalsText]

theorem nameGrade_eq_exact {names : List String} {v : Json} :
    v.nameGrade names = .exact ↔ ∃ name ∈ names, v = .string name := by
  unfold nameGrade
  split
  · rename_i h
    simpa using h
  · rename_i h
    simpa using h

/-- `v == "A" ? a : b` for a field whose values are named `A` and `B`. -/
theorem choice_states {T : Type} {name : T → String} {a b : T} (hne : name a ≠ name b) (v : Json) :
    v.nameGrade [name a, name b] = .exact ↔
      v = .string (name (if v.equalsText (name a) then a else b)) := by
  rw [nameGrade_eq_exact]
  constructor
  · rintro ⟨text, htext, rfl⟩
    simp only [List.mem_cons, List.not_mem_nil, or_false] at htext
    obtain rfl | rfl := htext
    · simp
    · simp [hne.symm]
  · intro h
    split at h
    · exact ⟨_, by simp, h⟩
    · exact ⟨_, by simp, h⟩

end Json

theorem Reads.getString (v : Json) :
    Reads v.getString (Json.stringSites v) fun s => v = .string s := by
  cases v with
  | string s => exact ⟨rfl, fun _ => ⟨s, rfl, rfl⟩, fun _ _ => by simp [Json.stringSites]⟩
  | null | boolean | integer | unsigned | float | array | object =>
    exact halt (.inl ⟨rfl, rfl⟩) fun s hs => by cases hs

/-- Reading a text and going on with its parsing, where an error of the
parser stops the reader at once or later. -/
theorem Reads.parsed {α β : Type} (parse : String → Except String α)
    (g : Except String α → Outcome β) {hs : List Grade} {G : α → β → Prop}
    (hok : ∀ a, Reads (g (.ok a)) hs (G a)) (herror : ∀ e, (g (.error e)).ending = .stops)
    (v : Json) :
    Reads (v.getString >>= fun s => g (parse s)) (v.parsedSites parse ++ hs)
      fun b => ∃ a, v.IsParsed parse a ∧ G a b := by
  cases v with
  | string s =>
    rw [Json.getString, Outcome.value_bind, Json.parsedSites]
    cases hparse : parse s with
    | ok a =>
      refine (note (.inl rfl) (hok a)).congr (fun b hb => ⟨a, ⟨s, rfl, hparse⟩, hb.2⟩) ?_
      rintro b ⟨a', ⟨s', hs', ha'⟩, hb⟩
      cases hs'
      cases hparse.symm.trans ha'
      exact ⟨b, rfl, hb⟩
    | error e =>
      refine halt (.inl ⟨rfl, herror e⟩) ?_
      rintro b ⟨a, ⟨t, ht, hp⟩, -⟩
      cases ht
      cases hparse.symm.trans hp
  | null | boolean | integer | unsigned | float | array | object =>
    refine halt (.inl ⟨rfl, rfl⟩) ?_
    rintro b ⟨a, ⟨s, hs, -⟩, -⟩
    cases hs

theorem Reads.parsedOrFailed {α β : Type} {parse : String → Except String α} {f : α → Outcome β}
    {hs : List Grade} {G : α → β → Prop} (v : Json) (h : ∀ a, Reads (f a) hs (G a)) :
    Reads (v.getString >>= fun s => Outcome.ofExcept (parse s) >>= f) (v.parsedSites parse ++ hs)
      fun b => ∃ a, v.IsParsed parse a ∧ G a b :=
  Reads.parsed parse (Outcome.ofExcept · >>= f) h (fun _ => rfl) v

end UpfPolicy.Support
