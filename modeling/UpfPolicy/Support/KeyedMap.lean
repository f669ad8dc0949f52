/-
UpfPolicy.Support.KeyedMap — ordered maps with an inserting subscript, and
maps rebuilt from a list of keyed items.

`subscript m k` is the `operator[]` of a C++ map: it returns the value at
`k` and, where there is none, inserts the default value first. On a key
that is present it changes nothing (`subscript_of_getElem?`).

`rebuild key val items` inserts one entry for each item. When the keys of
the items are pairwise distinct, the entry at a key is that of the only
item under it (`getElem?_rebuild`), so the order of the items does not
matter (`rebuild_perm`), and neither does it for a search by key
(`find?_key_perm`).

`write m w` overwrites at most one entry. Writes that touch different keys
do not see each other (`getElem?_write_of_apart`) and commute (`write_comm`).
-/
import Mathlib.Data.List.Sort

namespace UpfPolicy.Support

section Map

variable {κ β : Type} [Ord κ] [Std.TransOrd κ]

/-- `m[k]` of a C++ map: the value, and the map after the access. -/
def subscript [Inhabited β] (m : Std.ExtTreeMap κ β) (k : κ) : β × Std.ExtTreeMap κ β :=
  match m[k]? with
  | some v => (v, m)
  | none => (default, m.insert k default)

theorem subscript_of_getElem? [Inhabited β] {m : Std.ExtTreeMap κ β} {k : κ} {v : β}
    (h : m[k]? = some v) : subscript m k = (v, m) := by
  simp [subscript, h]

/-- The value of a subscript does not depend on whether it inserted. -/
theorem subscript_fst [Inhabited β] (m : Std.ExtTreeMap κ β) (k : κ) :
    (subscript m k).1 = m[k]?.getD default := by
  unfold subscript
  split <;> simp_all

variable [Std.LawfulEqOrd κ]

theorem getElem?_insert_of_ne (m : Std.ExtTreeMap κ β) {k k' : κ} (v : β) (h : k ≠ k') :
    (m.insert k v)[k']? = m[k']? := by
  rw [Std.ExtTreeMap.getElem?_insert, if_neg]
  simpa using h

/-- A subscript leaves every other key alone. -/
theorem getElem?_subscript_snd_of_ne [Inhabited β] (m : Std.ExtTreeMap κ β) {k k' : κ}
    (h : k ≠ k') : (subscript m k).2[k']? = m[k']? := by
  unfold subscript
  split
  · rfl
  · exact getElem?_insert_of_ne m default h

/-- Overwriting a present key keeps the key set. -/
theorem mem_insert_of_mem {m : Std.ExtTreeMap κ β} {k : κ} (v : β) (h : k ∈ m) (k' : κ) :
    k' ∈ m.insert k v ↔ k' ∈ m := by
  rw [Std.ExtTreeMap.mem_insert, Std.compare_eq_iff_eq]
  constructor
  · rintro (rfl | hmem)
    · exact h
    · exact hmem
  · exact Or.inr

end Map

/-! ## Writes of at most one entry -/

section Write

variable {κ β : Type} [Ord κ] [Std.TransOrd κ]

/-- Overwrite one entry, or none. -/
def write (m : Std.ExtTreeMap κ β) : Option (κ × β) → Std.ExtTreeMap κ β
  | none => m
  | some (k, v) => m.insert k v

/-- The two writes, if any, go to different keys. -/
def Apart (w w' : Option (κ × β)) : Prop :=
  ∀ a b, w = some a → w' = some b → a.1 ≠ b.1

omit [Ord κ] [Std.TransOrd κ] in
theorem Apart.symm {w w' : Option (κ × β)} (h : Apart w w') : Apart w' w :=
  fun a b ha hb => (h b a hb ha).symm

@[simp] theorem write_none (m : Std.ExtTreeMap κ β) : write m none = m := rfl

variable [Std.LawfulEqOrd κ]

/-- A write leaves every other key alone. -/
theorem getElem?_write_of_apart (m : Std.ExtTreeMap κ β) {w : Option (κ × β)} {k : κ}
    (h : ∀ a, w = some a → a.1 ≠ k) : (write m w)[k]? = m[k]? := by
  cases w with
  | none => rfl
  | some a => exact getElem?_insert_of_ne m a.2 (h a rfl)

/-- **Writes to different keys commute.** -/
theorem write_comm (m : Std.ExtTreeMap κ β) {w w' : Option (κ × β)} (h : Apart w w') :
    write (write m w) w' = write (write m w') w := by
  cases w with
  | none => rfl
  | some a =>
    cases w' with
    | none => rfl
    | some b =>
      have hne : a.1 ≠ b.1 := h a b rfl rfl
      apply Std.ExtTreeMap.ext_getElem?
      intro k
      simp only [write, Std.ExtTreeMap.getElem?_insert]
      by_cases ha : compare a.1 k = .eq
      · have hb : ¬ compare b.1 k = .eq := by
          rw [Std.compare_eq_iff_eq] at ha ⊢
          exact fun hb => hne (ha.trans hb.symm)
        rw [if_neg hb, if_pos ha, if_pos ha]
      · rw [if_neg ha, if_neg ha]

/-- Two maps agree under the keys of a set. -/
def AgreeOn (ks : κ → Bool) (m m' : Std.ExtTreeMap κ β) : Prop := ∀ k, ks k = true → m'[k]? = m[k]?

omit [Std.LawfulEqOrd κ] in
/-- One write to both. -/
theorem AgreeOn.write {ks : κ → Bool} {m m' : Std.ExtTreeMap κ β} (h : AgreeOn ks m m')
    (w : Option (κ × β)) : AgreeOn ks (write m w) (write m' w) := by
  intro k hk
  cases w with
  | none => exact h k hk
  | some a =>
    simp only [Support.write, Std.ExtTreeMap.getElem?_insert]
    rw [h k hk]

/-- A write outside the set to one of them. -/
theorem AgreeOn.write_outside {ks : κ → Bool} {m m' : Std.ExtTreeMap κ β} (h : AgreeOn ks m m')
    {w : Option (κ × β)} (hw : ∀ a, w = some a → ks a.1 = false) : AgreeOn ks (Support.write m w) m' := by
  intro k hk
  rw [h k hk, getElem?_write_of_apart]
  intro a ha hkey
  rw [← hkey, hw a ha] at hk
  cases hk

end Write

/-! ## Items under distinct keys -/

section Keyed

variable {α κ β : Type} [DecidableEq κ]

/-- Under distinct keys a search by key finds the only item there is. -/
theorem find?_key_eq_some {key : α → κ} {items : List α} (hnd : (items.map key).Nodup)
    {k : κ} {a : α} :
    items.find? (fun x => key x == k) = some a ↔ a ∈ items ∧ key a = k := by
  induction items with
  | nil => simp
  | cons x rest ih =>
    rw [List.map_cons, List.nodup_cons] at hnd
    obtain ⟨hx, hrest⟩ := hnd
    by_cases hk : key x = k
    · subst hk
      simp only [List.find?_cons, beq_self_eq_true, Option.some.injEq, List.mem_cons]
      constructor
      · rintro rfl; exact ⟨Or.inl rfl, rfl⟩
      · rintro ⟨rfl | hmem, hka⟩
        · rfl
        · exact absurd (List.mem_map.mpr ⟨a, hmem, hka⟩) hx
    · have hbeq : (key x == k) = false := beq_eq_false_iff_ne.mpr hk
      rw [List.find?_cons_of_neg (by simp [hbeq]), ih hrest, List.mem_cons]
      constructor
      · rintro ⟨hmem, hka⟩; exact ⟨Or.inr hmem, hka⟩
      · rintro ⟨rfl | hmem, hka⟩
        · exact absurd hka hk
        · exact ⟨hmem, hka⟩

/-- A search by key does not see the order of the items. -/
theorem find?_key_perm {key : α → κ} {items items' : List α} (hperm : items.Perm items')
    (hnd : (items.map key).Nodup) (k : κ) :
    items.find? (fun x => key x == k) = items'.find? (fun x => key x == k) := by
  have hnd' : (items'.map key).Nodup := (hperm.map key).nodup_iff.mp hnd
  apply Option.ext
  intro a
  rw [find?_key_eq_some hnd, find?_key_eq_some hnd', hperm.mem_iff]

variable [Ord κ] [Std.TransOrd κ] [Std.LawfulEqOrd κ]

/-- One entry for each item, later items overwriting earlier ones. -/
def rebuild (key : α → κ) (val : α → β) (items : List α) : Std.ExtTreeMap κ β :=
  items.foldl (fun m a => m.insert (key a) (val a)) ∅

theorem getElem?_foldl_insert {key : α → κ} {val : α → β} (items : List α)
    (hnd : (items.map key).Nodup) (m : Std.ExtTreeMap κ β) (k : κ) :
    (items.foldl (fun m a => m.insert (key a) (val a)) m)[k]?
      = ((items.find? (fun x => key x == k)).map val).or m[k]? := by
  induction items generalizing m with
  | nil => simp
  | cons x rest ih =>
    rw [List.map_cons, List.nodup_cons] at hnd
    obtain ⟨hx, hrest⟩ := hnd
    rw [List.foldl_cons, ih hrest]
    by_cases hk : key x = k
    · subst hk
      have hnone : rest.find? (fun y => key y == key x) = none := by
        rw [List.find?_eq_none]
        intro y hy hyx
        exact hx (List.mem_map.mpr ⟨y, hy, by simpa using hyx⟩)
      simp [hnone]
    · rw [getElem?_insert_of_ne m _ hk]
      simp [hk]

/-- Under distinct keys the rebuilt map holds, at each key, the entry of
the only item under it. -/
theorem getElem?_rebuild {key : α → κ} {val : α → β} {items : List α}
    (hnd : (items.map key).Nodup) (k : κ) :
    (rebuild key val items)[k]? = (items.find? (fun x => key x == k)).map val := by
  rw [rebuild, getElem?_foldl_insert items hnd]
  simp

theorem getElem?_rebuild_of_mem {key : α → κ} {val : α → β} {items : List α}
    (hnd : (items.map key).Nodup) {a : α} (ha : a ∈ items) :
    (rebuild key val items)[key a]? = some (val a) := by
  rw [getElem?_rebuild hnd, (find?_key_eq_some hnd).mpr ⟨ha, rfl⟩]
  rfl

/-- The keys of a rebuilt map are the keys of its items. -/
theorem mem_rebuild {key : α → κ} {val : α → β} {items : List α}
    (hnd : (items.map key).Nodup) (k : κ) :
    k ∈ rebuild key val items ↔ k ∈ items.map key := by
  rw [Std.ExtTreeMap.mem_iff_isSome_getElem?, getElem?_rebuild hnd, Option.isSome_map,
    List.find?_isSome, List.mem_map]
  simp

/-- The order of the items does not matter. -/
theorem rebuild_perm {key : α → κ} {val : α → β} {items items' : List α}
    (hperm : items.Perm items') (hnd : (items.map key).Nodup) :
    rebuild key val items = rebuild key val items' := by
  apply Std.ExtTreeMap.ext_getElem?
  intro k
  rw [getElem?_rebuild hnd, getElem?_rebuild ((hperm.map key).nodup_iff.mp hnd),
    find?_key_perm hperm hnd]

end Keyed

end UpfPolicy.Support
