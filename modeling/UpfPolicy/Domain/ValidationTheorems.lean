/-
UpfPolicy.Domain.ValidationTheorems — what an accepted ruleset satisfies.

`validateRuleSet_ok_iff` turns acceptance into the structure
`RuleSetValid`: distinct valid IDs of each kind, every PDR passing its own
checks, and no two PDRs of one precedence with overlapping match spaces.
`validatePdr_ok` reads the checks of one PDR as `PdrReferences`: the FAR,
QER and URR it cites exist and the FAR fits the direction.

Acceptance does not depend on the order of the rules
(`RuleSetValid.perm`); the lookups do not either (`findFar_perm` and its
siblings).
-/
import Mathlib.Data.List.Pairwise
import UpfPolicy.Domain.MatcherTheorems
import UpfPolicy.Domain.Engine

namespace UpfPolicy

open Support

/-! ## Distinct IDs -/

theorem uniqueIdsFrom_iff (ids : List UInt32) (values : List RuleId) :
    uniqueIdsFrom ids values = true ↔
      (∀ id ∈ values, id.valid = true ∧ id.value ∉ ids) ∧ (values.map (·.value)).Nodup := by
  induction values generalizing ids with
  | nil => simp [uniqueIdsFrom]
  | cons id rest ih =>
    rw [uniqueIdsFrom, List.map_cons, List.nodup_cons]
    by_cases hbad : (!id.valid || ids.contains id.value) = true
    · rw [if_pos hbad]
      simp only [Bool.or_eq_true, Bool.not_eq_true', List.contains_eq_mem, decide_eq_true_eq] at hbad
      constructor
      · intro h; cases h
      · rintro ⟨hall, -⟩
        obtain ⟨hvalid, hnew⟩ := hall id (List.mem_cons_self ..)
        rcases hbad with h | h
        · rw [hvalid] at h; cases h
        · exact absurd h hnew
    · rw [if_neg hbad, ih]
      simp only [Bool.or_eq_true, Bool.not_eq_true', List.contains_eq_mem, decide_eq_true_eq,
        not_or, Bool.not_eq_false] at hbad
      obtain ⟨hvalid, hnew⟩ := hbad
      constructor
      · rintro ⟨hall, hnd⟩
        refine ⟨?_, ?_, hnd⟩
        · intro x hx
          rcases List.mem_cons.mp hx with rfl | hx
          · exact ⟨hvalid, hnew⟩
          · exact ⟨(hall x hx).1, fun h => (hall x hx).2 (List.mem_cons_of_mem _ h)⟩
        · intro hmem
          obtain ⟨x, hx, hxv⟩ := List.mem_map.mp hmem
          exact (hall x hx).2 (hxv ▸ List.mem_cons_self ..)
      · rintro ⟨hall, hnotin, hnd⟩
        refine ⟨?_, hnd⟩
        intro x hx
        obtain ⟨hxvalid, hxnew⟩ := hall x (List.mem_cons_of_mem _ hx)
        refine ⟨hxvalid, ?_⟩
        rintro h
        rcases List.mem_cons.mp h with h | h
        · exact hnotin (List.mem_map.mpr ⟨x, hx, h⟩)
        · exact hxnew h

/-- The IDs are nonzero and pairwise distinct. -/
structure DistinctIds {α : Type} (id : α → RuleId) (items : List α) : Prop where
  valid : ∀ x ∈ items, (id x).valid = true
  nodup : (items.map (fun x => (id x).value)).Nodup

theorem uniqueIds_iff {α : Type} (id : α → RuleId) (items : List α) :
    uniqueIds (items.map id) = true ↔ DistinctIds id items := by
  rw [uniqueIds, uniqueIdsFrom_iff]
  simp only [List.mem_map, List.not_mem_nil, not_false_eq_true, and_true, List.map_map]
  constructor
  · rintro ⟨hvalid, hnd⟩
    exact ⟨fun x hx => hvalid (id x) ⟨x, hx, rfl⟩, hnd⟩
  · rintro ⟨hvalid, hnd⟩
    refine ⟨?_, hnd⟩
    rintro _ ⟨x, hx, rfl⟩
    exact hvalid x hx

theorem DistinctIds.perm {α : Type} {id : α → RuleId} {xs ys : List α} (hperm : xs.Perm ys)
    (h : DistinctIds id xs) : DistinctIds id ys :=
  ⟨fun x hx => h.valid x (hperm.mem_iff.mpr hx), (hperm.map _).nodup_iff.mp h.nodup⟩

/-- Distinct values are distinct IDs. -/
theorem DistinctIds.nodup_id {α : Type} {id : α → RuleId} {items : List α}
    (h : DistinctIds id items) : (items.map id).Nodup := by
  have hnd := h.nodup
  rw [show (fun x => (id x).value) = RuleId.value ∘ id from rfl, ← List.map_map] at hnd
  exact hnd.of_map

/-- Under distinct IDs an ID value names one item. -/
theorem DistinctIds.eq_of_value {α : Type} {id : α → RuleId} {items : List α}
    (h : DistinctIds id items) {a b : α} (ha : a ∈ items) (hb : b ∈ items)
    (hvalue : (id a).value = (id b).value) : a = b :=
  List.inj_on_of_nodup_map h.nodup ha hb hvalue

/-! ## One PDR -/

/-- The FAR of a PDR fits its direction. -/
structure FarFits (pdr : Pdr) (far : Far) : Prop where
  drop : far.action = .drop → far.destination = none ∧ far.operation = .tunnelNone
  uplink : far.action = .forward → pdr.sourceInterface = .n3 →
    far.destination = some .n6 ∧ far.operation = .remove
  downlink : far.action = .forward → pdr.sourceInterface = .n6 →
    far.destination = some .n3 ∧ far.operation = .add ∧
      ∃ t, far.tunnel = some t ∧ t.valid = true

/-- What `validatePdr` establishes about the references of a PDR. -/
structure PdrReferences (rules : RuleSet) (pdr : Pdr) : Prop where
  far : ∃ far, findFar rules pdr.farId = some far ∧ FarFits pdr far
  qer : ∀ id, pdr.qerId = some id → ∃ qer, findQer rules id = some qer
  urr : ∀ id, pdr.urrId = some id → ∃ urr, findUrr rules id = some urr

/-- A check that may fail, followed by the rest of the checks. -/
theorem ite_error_eq_ok {c : Prop} [Decidable c] {e : String} {rest : Except String Unit} :
    (if c then .error e else rest) = .ok () ↔ ¬ c ∧ rest = .ok () := by
  by_cases h : c
  · rw [if_pos h]
    exact ⟨fun hok => (by cases hok), fun hboth => absurd h hboth.1⟩
  · rw [if_neg h]
    exact ⟨fun hok => ⟨h, hok⟩, fun hboth => hboth.2⟩

theorem validatePdr_ok {rules : RuleSet} {pdr : Pdr} (h : validatePdr rules pdr = .ok ()) :
    PdrReferences rules pdr := by
  unfold validatePdr at h
  cases hfar : findFar rules pdr.farId with
  | none => rw [hfar] at h; cases h
  | some far =>
    simp only [hfar, ite_error_eq_ok] at h
    obtain ⟨hqer, hurr, -, -, -, -, hchecks⟩ := h
    have hfits : FarFits pdr far := by
      by_cases hforward : far.action = .forward
      · rw [if_pos hforward] at hchecks
        cases hdest : far.destination with
        | none => rw [hdest] at hchecks; cases hchecks
        | some destination =>
          simp only [hdest, ite_error_eq_ok] at hchecks
          obtain ⟨huplink, hdownlink, -⟩ := hchecks
          refine ⟨fun hdrop => ?_, fun _ hn3 => ?_, fun _ hn6 => ?_⟩
          · rw [hforward] at hdrop
            cases hdrop
          · rw [not_and, not_or, not_not, not_not] at huplink
            obtain ⟨rfl, hop⟩ := huplink hn3
            exact ⟨hdest, hop⟩
          · rw [not_and, not_or, not_or, not_not, not_not] at hdownlink
            obtain ⟨rfl, hop, htunnel⟩ := hdownlink hn6
            refine ⟨hdest, hop, ?_⟩
            cases ht : far.tunnel with
            | none => simp [ht] at htunnel
            | some t => exact ⟨t, rfl, by simpa [ht] using htunnel⟩
      · rw [if_neg hforward, ite_error_eq_ok] at hchecks
        obtain ⟨hdrop, -⟩ := hchecks
        rw [not_or, Bool.not_eq_true, Option.isSome_eq_false_iff, not_not] at hdrop
        exact ⟨fun _ => ⟨by simpa using hdrop.1, hdrop.2⟩, fun h => absurd h hforward,
          fun h => absurd h hforward⟩
    refine ⟨⟨far, hfar, hfits⟩, ?_, ?_⟩
    · intro id hid
      rw [hid, Option.any_some, Bool.not_eq_true, Option.isNone_eq_false_iff] at hqer
      exact Option.isSome_iff_exists.mp hqer
    · intro id hid
      rw [hid, Option.any_some, Bool.not_eq_true, Option.isNone_eq_false_iff] at hurr
      exact Option.isSome_iff_exists.mp hurr

/-- `validatePdr` sees a ruleset only through the three lookups. -/
theorem validatePdr_congr {rules rules' : RuleSet} (hfar : findFar rules = findFar rules')
    (hqer : findQer rules = findQer rules') (hurr : findUrr rules = findUrr rules') (pdr : Pdr) :
    validatePdr rules pdr = validatePdr rules' pdr := by
  simp only [validatePdr, hfar, hqer, hurr]

/-! ## The ruleset -/

/-- Two PDRs of one precedence whose match spaces overlap. -/
def PdrsConflict (a b : Pdr) : Prop :=
  a.precedence = b.precedence ∧ matchSpacesOverlap a b = true

theorem PdrsConflict.symm {a b : Pdr} (h : PdrsConflict a b) : PdrsConflict b a :=
  ⟨h.1.symm, matchSpacesOverlap_comm a b ▸ h.2⟩

instance : Std.Symm (fun a b : Pdr => ¬ PdrsConflict a b) :=
  ⟨fun _ _ hab hba => hab hba.symm⟩

theorem validatePdrs_ok_iff (rules : RuleSet) (pdrs : List Pdr) :
    validatePdrs rules pdrs = .ok () ↔
      (∀ pdr ∈ pdrs, validatePdr rules pdr = .ok ()) ∧
        pdrs.Pairwise (fun a b => ¬ PdrsConflict a b) := by
  induction pdrs with
  | nil => simp [validatePdrs]
  | cons pdr rest ih =>
    rw [validatePdrs, List.pairwise_cons]
    cases hpdr : validatePdr rules pdr with
    | error e =>
      simp only [reduceCtorEq, List.mem_cons, forall_eq_or_imp, hpdr, false_and]
    | ok u =>
      simp only [List.mem_cons, forall_eq_or_imp, hpdr, true_and]
      rw [ite_error_eq_ok, ih]
      have hnone : ¬ rest.any (fun other => pdr.precedence == other.precedence &&
            matchSpacesOverlap pdr other) = true ↔ ∀ other ∈ rest, ¬ PdrsConflict pdr other := by
        simp only [Bool.not_eq_true, List.any_eq_false, Bool.and_eq_true, beq_iff_eq, PdrsConflict]
      rw [hnone]
      exact ⟨fun h => ⟨h.2.1, h.1, h.2.2⟩, fun h => ⟨h.2.1, h.1, h.2.2⟩⟩

/-- Everything `validateRuleSet` checks. -/
structure RuleSetValid (rules : RuleSet) (limits : CapacityLimits) : Prop where
  session : rules.sessionId.isEmpty = false
  version : rules.version ≠ 0
  pdrRoom : rules.pdrs.length ≤ limits.rulesPerType.toNat
  farRoom : rules.fars.length ≤ limits.rulesPerType.toNat
  qerRoom : rules.qers.length ≤ limits.rulesPerType.toNat
  urrRoom : rules.urrs.length ≤ limits.rulesPerType.toNat
  pdrIds : DistinctIds Pdr.id rules.pdrs
  farIds : DistinctIds Far.id rules.fars
  qerIds : DistinctIds Qer.id rules.qers
  urrIds : DistinctIds Urr.id rules.urrs
  pdrOk : ∀ pdr ∈ rules.pdrs, validatePdr rules pdr = .ok ()
  disjoint : rules.pdrs.Pairwise (fun a b => ¬ PdrsConflict a b)

/-- **Acceptance is validity.** -/
theorem validateRuleSet_ok_iff (rules : RuleSet) (limits : CapacityLimits) :
    validateRuleSet rules limits = .ok () ↔ RuleSetValid rules limits := by
  unfold validateRuleSet
  rw [ite_error_eq_ok, ite_error_eq_ok, ite_error_eq_ok, validatePdrs_ok_iff]
  simp only [not_or, Bool.not_eq_true, Bool.not_eq_true', Bool.not_eq_false, gt_iff_lt, Nat.not_lt,
    uniqueIds_iff]
  constructor
  · rintro ⟨⟨hsession, hversion⟩, ⟨hp, hf, hq, hu⟩, ⟨hip, hif, hiq, hiu⟩, hok, hdisjoint⟩
    exact ⟨hsession, hversion, hp, hf, hq, hu, hip, hif, hiq, hiu, hok, hdisjoint⟩
  · intro h
    exact ⟨⟨h.session, h.version⟩, ⟨h.pdrRoom, h.farRoom, h.qerRoom, h.urrRoom⟩,
      ⟨h.pdrIds, h.farIds, h.qerIds, h.urrIds⟩, h.pdrOk, h.disjoint⟩

/-- Two distinct PDRs of an accepted ruleset do not conflict. -/
theorem RuleSetValid.not_conflict {rules : RuleSet} {limits : CapacityLimits}
    (h : RuleSetValid rules limits) {a b : Pdr} (ha : a ∈ rules.pdrs) (hb : b ∈ rules.pdrs)
    (hne : a ≠ b) : ¬ PdrsConflict a b :=
  h.disjoint.forall ha hb hne

/-! ## Lookups -/

section Lookups

variable {rules : RuleSet} {limits : CapacityLimits} (h : RuleSetValid rules limits)
include h

theorem RuleSetValid.findQer_eq_some {id : QerId} {qer : Qer} :
    findQer rules id = some qer ↔ qer ∈ rules.qers ∧ qer.id = id :=
  find?_key_eq_some h.qerIds.nodup_id

theorem RuleSetValid.findUrr_eq_some {id : UrrId} {urr : Urr} :
    findUrr rules id = some urr ↔ urr ∈ rules.urrs ∧ urr.id = id :=
  find?_key_eq_some h.urrIds.nodup_id

end Lookups

/-! ## Permuted rulesets -/

/-- The same rules in another order. -/
structure RuleSet.Permuted (rules rules' : RuleSet) : Prop where
  sessionId : rules.sessionId = rules'.sessionId
  version : rules.version = rules'.version
  pdrs : rules.pdrs.Perm rules'.pdrs
  fars : rules.fars.Perm rules'.fars
  qers : rules.qers.Perm rules'.qers
  urrs : rules.urrs.Perm rules'.urrs

theorem RuleSet.Permuted.symm {rules rules' : RuleSet} (h : rules.Permuted rules') :
    rules'.Permuted rules :=
  ⟨h.sessionId.symm, h.version.symm, h.pdrs.symm, h.fars.symm, h.qers.symm, h.urrs.symm⟩

theorem RuleSet.Permuted.trans {rules rules' rules'' : RuleSet} (h : rules.Permuted rules')
    (h' : rules'.Permuted rules'') : rules.Permuted rules'' :=
  ⟨h.sessionId.trans h'.sessionId, h.version.trans h'.version, h.pdrs.trans h'.pdrs,
    h.fars.trans h'.fars, h.qers.trans h'.qers, h.urrs.trans h'.urrs⟩

section Permuted

variable {rules rules' : RuleSet} {limits : CapacityLimits} (hperm : rules.Permuted rules')
  (h : RuleSetValid rules limits)
include hperm h

theorem findFar_perm : findFar rules = findFar rules' := by
  funext id
  exact find?_key_perm hperm.fars h.farIds.nodup_id id

theorem findQer_perm : findQer rules = findQer rules' := by
  funext id
  exact find?_key_perm hperm.qers h.qerIds.nodup_id id

theorem findUrr_perm : findUrr rules = findUrr rules' := by
  funext id
  exact find?_key_perm hperm.urrs h.urrIds.nodup_id id

/-- **Acceptance does not see the order of the rules.** -/
theorem RuleSetValid.perm : RuleSetValid rules' limits where
  session := hperm.sessionId ▸ h.session
  version := hperm.version ▸ h.version
  pdrRoom := hperm.pdrs.length_eq ▸ h.pdrRoom
  farRoom := hperm.fars.length_eq ▸ h.farRoom
  qerRoom := hperm.qers.length_eq ▸ h.qerRoom
  urrRoom := hperm.urrs.length_eq ▸ h.urrRoom
  pdrIds := h.pdrIds.perm hperm.pdrs
  farIds := h.farIds.perm hperm.fars
  qerIds := h.qerIds.perm hperm.qers
  urrIds := h.urrIds.perm hperm.urrs
  pdrOk := by
    intro pdr hpdr
    rw [← validatePdr_congr (findFar_perm hperm h) (findQer_perm hperm h) (findUrr_perm hperm h)]
    exact h.pdrOk pdr (hperm.pdrs.mem_iff.mpr hpdr)
  disjoint := (hperm.pdrs.pairwise_iff (fun hab hba => hab hba.symm)).mp h.disjoint

end Permuted

/-! ## The rules of the test builders -/

/-- The UE prefix `10.10.0.0/24`. -/
def basicUePrefix : IpPrefix where
  network := {
    family := .ipv4
    bytes := #v[10, 10, 0, 0, 0, 0, 0, 0, 0, 0, 0, 0, 0, 0, 0, 0]
    ipv4_tail := by decide }
  length := 24
  length_le := by decide
  host_bits_zero := by
    have hbits : ∀ i < 32, 24 ≤ i →
        bitAt [10, 10, 0, 0, 0, 0, 0, 0, 0, 0, 0, 0, 0, 0, 0, 0] i = false := by decide
    exact fun i hle hlt => hbits i hlt hle

/-- `basicRules` of `tests/support/test_builders.hpp`. -/
def basicRules : RuleSet where
  sessionId := "session-1"
  version := 3
  pdrs := [{
    id := ⟨10⟩
    precedence := 100
    sourceInterface := .n3
    teid := some 1001
    uePrefix := basicUePrefix
    protocol := some .udp
    localPorts := some ⟨41000, 41000⟩
    remotePorts := some ⟨443, 443⟩
    qfi := some 9
    farId := ⟨20⟩
    qerId := some ⟨30⟩
    urrId := some ⟨40⟩ }]
  fars := [{ id := ⟨20⟩, action := .forward, destination := some .n6, operation := .remove }]
  qers := [{ id := ⟨30⟩, rateBitsPerSecond := 10000000, burstBytes := 20000 }]
  urrs := [{ id := ⟨40⟩, volumeThresholdBytes := 10000 }]

example : validateRuleSet basicRules {} = .ok () := by decide

end UpfPolicy
