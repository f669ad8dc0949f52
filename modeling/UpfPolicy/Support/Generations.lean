/-
UpfPolicy.Support.Generations — entries that survive a rebuild for as long
as their generation does.

A `Store` holds an entry and a generation under each of its keys. Rebuilding
it for a list of items keeps the entry of an item whose key it holds under
the same generation, and starts every other item from its fresh entry
(`Store.carried`). `Holds` says which items a store was built for:

  * a rebuilt store holds its items (`holds_rebuilt`), and overwriting an
    entry under a held key keeps that (`Holds.insert`);
  * what an item carries over is decided by the items held before:
    `Holds.carried_of_mem` for the same key and generation, and
    `Holds.carried_of_not_mem` for all others; `Holds.settled` says both of
    a rebuilt store;
  * rebuilding a store for the items it holds changes nothing
    (`Holds.rebuilt_self`);
  * stores that agree under some keys still do after a rebuild
    (`Store.agreeOn_rebuilt`).

A `Book` is what a store says under each key, through a function that may
forget part of an entry. `Store.book_rebuilt` and `Store.book_insert` say
that a book can be kept without the store.
-/
import UpfPolicy.Support.KeyedMap

set_option linter.unusedSectionVars false

namespace UpfPolicy.Support

/-- Something to hold: its key, its generation and the entry it starts with. -/
structure Item (κ γ σ : Type) where
  key : κ
  generation : γ
  fresh : σ

/-- The list has an item under the same key and generation. -/
def Item.In {κ γ σ : Type} (i : Item κ γ σ) (items : List (Item κ γ σ)) : Prop :=
  ∃ j ∈ items, j.key = i.key ∧ j.generation = i.generation

structure Store (κ γ σ : Type) [Ord κ] where
  entries : Std.ExtTreeMap κ σ := ∅
  generations : Std.ExtTreeMap κ γ := ∅

namespace Store

variable {κ γ σ : Type} [DecidableEq κ] [Ord κ] [Std.TransOrd κ] [Std.LawfulEqOrd κ]
  [DecidableEq γ]

/-- The entry an item starts from: the one held, if its generation is the
same. -/
def carried (s : Store κ γ σ) (i : Item κ γ σ) : σ :=
  match s.entries[i.key]?, s.generations[i.key]? with
  | some entry, some generation => if generation = i.generation then entry else i.fresh
  | _, _ => i.fresh

/-- The store rebuilt for a list of items. -/
def rebuilt (s : Store κ γ σ) (items : List (Item κ γ σ)) : Store κ γ σ where
  entries := rebuild (·.key) s.carried items
  generations := rebuild (·.key) (·.generation) items

/-- Overwrite the entry under a key. -/
def insert (s : Store κ γ σ) (k : κ) (entry : σ) : Store κ γ σ :=
  { s with entries := s.entries.insert k entry }

/-- The store was built for these items. -/
structure Holds (s : Store κ γ σ) (items : List (Item κ γ σ)) : Prop where
  keys : ∀ k, k ∈ s.entries ↔ k ∈ items.map (·.key)
  generations : s.generations = rebuild (·.key) (·.generation) items

/-- Entries and generations are kept under the same keys. -/
def Paired (s : Store κ γ σ) : Prop := ∀ k, k ∈ s.entries ↔ k ∈ s.generations

namespace Paired

variable {s : Store κ γ σ}

/-- A key without a generation has no entry. -/
theorem entry_eq_none (h : s.Paired) {k : κ} (hk : s.generations[k]? = none) :
    s.entries[k]? = none := by
  rw [← Option.not_isSome_iff_eq_none, ← Std.ExtTreeMap.mem_iff_isSome_getElem?] at hk ⊢
  rwa [h]

/-- A key with a generation has an entry. -/
theorem entry_of_generation (h : s.Paired) {k : κ} {generation : γ}
    (hk : s.generations[k]? = some generation) : ∃ entry, s.entries[k]? = some entry := by
  have hmem : k ∈ s.generations := by
    rw [Std.ExtTreeMap.mem_iff_isSome_getElem?, hk]
    rfl
  rw [← h, Std.ExtTreeMap.mem_iff_isSome_getElem?] at hmem
  exact Option.isSome_iff_exists.mp hmem

end Paired

theorem holds_empty : Holds ({} : Store κ γ σ) [] :=
  ⟨fun k => by simp, rfl⟩

theorem holds_rebuilt (s : Store κ γ σ) {items : List (Item κ γ σ)}
    (hnd : (items.map (·.key)).Nodup) : Holds (s.rebuilt items) items :=
  ⟨mem_rebuild hnd, rfl⟩

theorem entry_rebuilt (s : Store κ γ σ) {items : List (Item κ γ σ)}
    (hnd : (items.map (·.key)).Nodup) {i : Item κ γ σ} (hi : i ∈ items) :
    (s.rebuilt items).entries[i.key]? = some (s.carried i) :=
  getElem?_rebuild_of_mem hnd hi

theorem rebuilt_perm (s : Store κ γ σ) {items items' : List (Item κ γ σ)}
    (hperm : items.Perm items') (hnd : (items.map (·.key)).Nodup) :
    s.rebuilt items = s.rebuilt items' := by
  simp only [rebuilt, rebuild_perm hperm hnd]

/-- An item carries the entry held under its key and generation, or starts
fresh. -/
theorem carried_cases (s : Store κ γ σ) (i : Item κ γ σ) :
    (s.entries[i.key]? = some (s.carried i) ∧ s.generations[i.key]? = some i.generation) ∨
      s.carried i = i.fresh := by
  unfold carried
  cases hentry : s.entries[i.key]? with
  | none => exact Or.inr rfl
  | some entry =>
    cases hgen : s.generations[i.key]? with
    | none => exact Or.inr rfl
    | some generation =>
      by_cases hsame : generation = i.generation
      · simp only [hsame, if_true, and_self, true_or]
      · exact Or.inr (if_neg hsame)

/-- The entry under the item's key and generation is carried. -/
theorem carried_of_entry {s : Store κ γ σ} {i : Item κ γ σ} {entry : σ}
    (hentry : s.entries[i.key]? = some entry) (hgen : s.generations[i.key]? = some i.generation) :
    s.carried i = entry := by
  simp only [carried, hentry, hgen, if_true]

/-- Only the entry and the generation under the item's own key matter. -/
theorem carried_congr {s s' : Store κ γ σ} {i : Item κ γ σ}
    (hentry : s.entries[i.key]? = s'.entries[i.key]?)
    (hgen : s.generations[i.key]? = s'.generations[i.key]?) : s.carried i = s'.carried i := by
  simp only [carried, hentry, hgen]

/-- Stores with the same generations that agree under some keys still agree
there after a rebuild. -/
theorem agreeOn_rebuilt {ks : κ → Bool} {s s' : Store κ γ σ} (h : AgreeOn ks s.entries s'.entries)
    (hgen : s'.generations = s.generations) {items : List (Item κ γ σ)}
    (hnd : (items.map (·.key)).Nodup) :
    AgreeOn ks (s.rebuilt items).entries (s'.rebuilt items).entries := by
  intro k hk
  rw [rebuilt, rebuilt, getElem?_rebuild hnd, getElem?_rebuild hnd]
  cases hfind : items.find? fun i => i.key == k with
  | none => rfl
  | some i =>
    obtain ⟨-, rfl⟩ := (find?_key_eq_some hnd).mp hfind
    exact congrArg some (carried_congr (h i.key hk) (by rw [hgen]))

/-- What became of an item: its entry was kept or is fresh; it is fresh
unless the item was `held`, and kept if the item is in `kept`. -/
structure Settled (before after : Store κ γ σ) (i : Item κ γ σ)
    (held kept : List (Item κ γ σ)) : Prop where
  either : after.entries[i.key]? = before.entries[i.key]? ∨ after.entries[i.key]? = some i.fresh
  fresh : ¬ i.In held → after.entries[i.key]? = some i.fresh
  kept : i.In kept →
    ∃ entry, before.entries[i.key]? = some entry ∧ after.entries[i.key]? = some entry

namespace Holds

variable {s : Store κ γ σ} {items held : List (Item κ γ σ)}

/-- Every held item has an entry. -/
theorem entry (h : Holds s items) {i : Item κ γ σ} (hi : i ∈ items) :
    ∃ entry, s.entries[i.key]? = some entry := by
  have hmem := (h.keys i.key).mpr (List.mem_map.mpr ⟨i, hi, rfl⟩)
  exact Option.isSome_iff_exists.mp (Std.ExtTreeMap.mem_iff_isSome_getElem?.mp hmem)

theorem insert (h : Holds s items) {k : κ} (hk : k ∈ s.entries) (entry : σ) :
    Holds (s.insert k entry) items :=
  ⟨fun k' => (mem_insert_of_mem entry hk k').trans (h.keys k'), h.generations⟩

theorem generation (h : Holds s items) (hnd : (items.map (·.key)).Nodup) {i : Item κ γ σ}
    (hi : i ∈ items) : s.generations[i.key]? = some i.generation := by
  rw [h.generations]
  exact getElem?_rebuild_of_mem hnd hi

/-- An item under a held key and the held generation carries the entry. -/
theorem carried_of_mem (h : Holds s items) (hnd : (items.map (·.key)).Nodup) {i j : Item κ γ σ}
    (hj : j ∈ items) (hkey : j.key = i.key) (hgen : j.generation = i.generation) {entry : σ}
    (hentry : s.entries[i.key]? = some entry) : s.carried i = entry := by
  have hheld := h.generation hnd hj
  rw [hkey, hgen] at hheld
  exact carried_of_entry hentry hheld

/-- Every other item starts fresh. -/
theorem carried_of_not_mem (h : Holds s items) (hnd : (items.map (·.key)).Nodup) {i : Item κ γ σ}
    (hnot : ∀ j ∈ items, j.key = i.key → j.generation ≠ i.generation) : s.carried i = i.fresh := by
  by_cases hmem : i.key ∈ items.map (·.key)
  · obtain ⟨j, hj, hkey⟩ := List.mem_map.mp hmem
    have hheld := h.generation hnd hj
    rw [hkey] at hheld
    obtain ⟨entry, hentry⟩ := h.entry hj
    rw [hkey] at hentry
    simp only [carried, hentry, hheld, if_neg (hnot j hj hkey)]
  · have hnone : s.entries[i.key]? = none := by
      rw [← Option.not_isSome_iff_eq_none, ← Std.ExtTreeMap.mem_iff_isSome_getElem?, h.keys]
      exact hmem
    simp only [carried, hnone]

theorem paired (h : Holds s items) (hnd : (items.map (·.key)).Nodup) : s.Paired := by
  intro k
  rw [h.keys, h.generations, mem_rebuild hnd]

/-- **Rebuilding a store for what it holds changes nothing.** -/
theorem rebuilt_self (h : Holds s items) (hnd : (items.map (·.key)).Nodup) :
    s.rebuilt items = s := by
  have hentries : (s.rebuilt items).entries = s.entries := by
    apply Std.ExtTreeMap.ext_getElem?
    intro k
    by_cases hk : k ∈ items.map (·.key)
    · obtain ⟨i, hi, rfl⟩ := List.mem_map.mp hk
      obtain ⟨entry, hentry⟩ := h.entry hi
      rw [entry_rebuilt s hnd hi, h.carried_of_mem hnd hi rfl rfl hentry, hentry]
    · have hold : ¬ k ∈ s.entries := fun hmem => hk ((h.keys k).mp hmem)
      have hnew : ¬ k ∈ (s.rebuilt items).entries := fun hmem => hk ((mem_rebuild hnd k).mp hmem)
      rw [Std.ExtTreeMap.getElem?_eq_none hold, Std.ExtTreeMap.getElem?_eq_none hnew]
  have hgenerations : (s.rebuilt items).generations = s.generations := h.generations.symm
  show (⟨(s.rebuilt items).entries, (s.rebuilt items).generations⟩ : Store κ γ σ) = s
  rw [hentries, hgenerations]

/-- A rebuild settles every item of the new list. -/
theorem settled (h : Holds s held) (hheld : (held.map (·.key)).Nodup)
    (hnd : (items.map (·.key)).Nodup) {i : Item κ γ σ} (hi : i ∈ items) {kept : List (Item κ γ σ)}
    (hkept : kept ⊆ held) : Settled s (s.rebuilt items) i held kept := by
  have hafter := entry_rebuilt s hnd hi
  refine ⟨?_, ?_, ?_⟩
  · rcases s.carried_cases i with ⟨hentry, -⟩ | hfresh
    · exact Or.inl (hafter.trans hentry.symm)
    · exact Or.inr (hfresh ▸ hafter)
  · intro hnot
    rw [hafter, h.carried_of_not_mem hheld]
    intro j hj hkey hgen
    exact hnot ⟨j, hj, hkey, hgen⟩
  · rintro ⟨j, hj, hkey, hgen⟩
    obtain ⟨entry, hentry⟩ := h.entry (hkept hj)
    rw [hkey] at hentry
    refine ⟨entry, hentry, ?_⟩
    rw [hafter, h.carried_of_mem hheld (hkept hj) hkey hgen hentry]

end Holds

end Store

/-! ## Books -/

/-- Entries and generations by key. -/
structure Book (κ γ σ : Type) where
  entries : κ → Option σ := fun _ => none
  generations : κ → Option γ := fun _ => none

/-- An item whose fresh entry is seen through `f`. -/
def Item.map {κ γ σ τ : Type} (f : σ → τ) (i : Item κ γ σ) : Item κ γ τ :=
  ⟨i.key, i.generation, f i.fresh⟩

section Book

variable {κ γ σ τ : Type} [DecidableEq κ] [DecidableEq γ]

/-- Enter something under a key. -/
def Book.enter (b : Book κ γ σ) (k : κ) (entry : σ) : Book κ γ σ :=
  { b with entries := fun k' => if k = k' then some entry else b.entries k' }

/-- The entry an item starts from. -/
def Book.carried (b : Book κ γ σ) (i : Item κ γ σ) : σ :=
  if b.generations i.key = some i.generation then (b.entries i.key).getD i.fresh else i.fresh

/-- A new book for a list of items. -/
def Book.reopened (b : Book κ γ σ) (items : List (Item κ γ σ)) : Book κ γ σ where
  entries k := (items.find? fun i => i.key == k).map b.carried
  generations k := (items.find? fun i => i.key == k).map (·.generation)

variable [Ord κ] [Std.TransOrd κ] [Std.LawfulEqOrd κ] (f : σ → τ) (s : Store κ γ σ)

/-- The book of a store, seen through `f`. -/
def Store.book : Book κ γ τ where
  entries k := s.entries[k]?.map f
  generations k := s.generations[k]?

theorem Store.book_empty : ({} : Store κ γ σ).book f = {} := by
  simp [Store.book]

theorem Store.book_insert (k : κ) (entry : σ) :
    (s.insert k entry).book f = (s.book f).enter k (f entry) := by
  simp only [Store.book, Store.insert, Book.enter, Book.mk.injEq, and_true]
  funext k'
  rw [Std.ExtTreeMap.getElem?_insert]
  simp only [Std.compare_eq_iff_eq]
  split <;> rfl

theorem Store.book_carried (i : Item κ γ σ) : (s.book f).carried (i.map f) = f (s.carried i) := by
  unfold Book.carried Store.carried Store.book Item.map
  dsimp only
  rcases Option.eq_none_or_eq_some s.entries[i.key]? with hentry | ⟨entry, hentry⟩
  · simp [hentry]
  · rcases Option.eq_none_or_eq_some s.generations[i.key]? with hgen | ⟨generation, hgen⟩
    · simp [hentry, hgen]
    · by_cases hsame : generation = i.generation <;> simp [hentry, hgen, hsame]

/-- **A book follows its store through a rebuild.** -/
theorem Store.book_rebuilt {items : List (Item κ γ σ)} (hnd : (items.map (·.key)).Nodup) :
    (s.rebuilt items).book f = (s.book f).reopened (items.map (Item.map f)) := by
  have hfind : ∀ k, (items.map (Item.map f)).find? (fun i => i.key == k)
      = (items.find? fun i => i.key == k).map (Item.map f) := fun k => List.find?_map ..
  simp only [Store.book, Store.rebuilt, Book.reopened, Book.mk.injEq]
  constructor
  · funext k
    rw [getElem?_rebuild hnd, hfind, Option.map_map, Option.map_map]
    refine Option.map_congr fun i _ => ?_
    exact (s.book_carried f i).symm
  · funext k
    rw [getElem?_rebuild hnd, hfind, Option.map_map]
    rfl

end Book

end UpfPolicy.Support
