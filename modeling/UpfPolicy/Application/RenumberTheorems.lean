/-
UpfPolicy.Application.RenumberTheorems — PDRs with other precedences.

Precedences are compared, never computed with, and only between PDRs that
match one packet or overlap. So a renumbering matters only through the order
it gives PDRs with overlapping match spaces (`OrdersOverlapping`): one that
keeps this order is a change of the PDRs that shows in the precedence of the
candidates and nowhere else (`precedences_ordinal`).
-/
import UpfPolicy.Application.PdrChangeTheorems
import UpfPolicy.Application.SelectionTheorems

namespace UpfPolicy

open Support

/-- The PDR under another precedence. -/
def Pdr.renumbered (number : Pdr → UInt32) (pdr : Pdr) : Pdr :=
  { pdr with precedence := number pdr }

def RuleSet.renumbered (number : Pdr → UInt32) (rules : RuleSet) : RuleSet :=
  { rules with pdrs := rules.pdrs.map (Pdr.renumbered number) }

/-- PDRs whose match spaces overlap are ordered as before. -/
def OrdersOverlapping (number : Pdr → UInt32) (pdrs : List Pdr) : Prop :=
  ∀ a ∈ pdrs, ∀ b ∈ pdrs, matchSpacesOverlap a b = true →
    (number a < number b ↔ a.precedence < b.precedence)

/-! ## Validation -/

section Validation

variable {number : Pdr → UInt32} {rules : RuleSet} {limits : CapacityLimits}

/-- Equal precedences stay equal, and distinct ones distinct. -/
theorem OrdersOverlapping.eq_iff {pdrs : List Pdr} (h : OrdersOverlapping number pdrs) {a b : Pdr}
    (ha : a ∈ pdrs) (hb : b ∈ pdrs) (hoverlap : matchSpacesOverlap a b = true) :
    number a = number b ↔ a.precedence = b.precedence := by
  have hab := h a ha b hb hoverlap
  have hba := h b hb a ha ((matchSpacesOverlap_comm b a).trans hoverlap)
  rw [UInt32.lt_iff_toNat_lt, UInt32.lt_iff_toNat_lt] at hab hba
  rw [← UInt32.toNat_inj, ← UInt32.toNat_inj]
  omega

theorem OrdersOverlapping.conflict_iff {pdrs : List Pdr} (h : OrdersOverlapping number pdrs)
    {a b : Pdr} (ha : a ∈ pdrs) (hb : b ∈ pdrs) :
    PdrsConflict (a.renumbered number) (b.renumbered number) ↔ PdrsConflict a b :=
  and_congr_left fun hoverlap => h.eq_iff ha hb hoverlap

theorem distinctIds_renumbered (number : Pdr → UInt32) (pdrs : List Pdr) :
    DistinctIds Pdr.id (pdrs.map (Pdr.renumbered number)) ↔ DistinctIds Pdr.id pdrs := by
  have hids : (pdrs.map (Pdr.renumbered number)).map (fun pdr => pdr.id.value)
      = pdrs.map fun pdr => pdr.id.value := by
    rw [List.map_map]
    rfl
  constructor
  · rintro ⟨hvalid, hnodup⟩
    exact ⟨fun pdr hpdr => hvalid (pdr.renumbered number) (List.mem_map_of_mem hpdr),
      hids ▸ hnodup⟩
  · rintro ⟨hvalid, hnodup⟩
    refine ⟨fun pdr hpdr => ?_, hids ▸ hnodup⟩
    obtain ⟨pdr, hmem, rfl⟩ := List.mem_map.mp hpdr
    exact hvalid pdr hmem

/-- **Validation compares the precedences of overlapping PDRs only.** -/
theorem ruleSetValid_renumbered (h : OrdersOverlapping number rules.pdrs) :
    RuleSetValid (rules.renumbered number) limits ↔ RuleSetValid rules limits := by
  have hlength : (rules.renumbered number).pdrs.length = rules.pdrs.length := List.length_map ..
  have hdisjoint : (rules.renumbered number).pdrs.Pairwise (fun a b => ¬ PdrsConflict a b) ↔
      rules.pdrs.Pairwise (fun a b => ¬ PdrsConflict a b) := by
    rw [show (rules.renumbered number).pdrs = rules.pdrs.map (Pdr.renumbered number) from rfl,
      List.pairwise_map]
    exact List.Pairwise.iff_of_mem fun ha hb => not_congr (h.conflict_iff ha hb)
  have hok : (∀ pdr ∈ (rules.renumbered number).pdrs,
        validatePdr (rules.renumbered number) pdr = .ok ()) ↔
      ∀ pdr ∈ rules.pdrs, validatePdr rules pdr = .ok () :=
    List.forall_mem_map
  constructor
  · intro hnew
    exact { hnew with
      pdrRoom := hlength ▸ hnew.pdrRoom
      pdrIds := (distinctIds_renumbered number rules.pdrs).mp hnew.pdrIds
      pdrOk := hok.mp hnew.pdrOk
      disjoint := hdisjoint.mp hnew.disjoint }
  · intro hold
    exact { hold with
      pdrRoom := hlength ▸ hold.pdrRoom
      pdrIds := (distinctIds_renumbered number rules.pdrs).mpr hold.pdrIds
      pdrOk := hok.mpr hold.pdrOk
      disjoint := hdisjoint.mpr hold.disjoint }

end Validation

namespace PacketPipeline

/-! ## Candidates and winner -/

/-- The candidates of the same PDRs in the same order, under other
precedences. -/
abbrev Renumbered : CandidateRelation :=
  List.Forall₂ fun c c' => c' = { c with precedence := c'.precedence }

section Selection

variable [InetText] {number : Pdr → UInt32}

theorem evaluateCandidate_renumbered (number : Pdr → UInt32) (pdr : Pdr) (packet : Packet) :
    evaluateCandidate (pdr.renumbered number) packet
      = { evaluateCandidate pdr packet with precedence := number pdr } :=
  rfl

omit [InetText] in
/-- Sorting candidates is sorting the PDRs by ID. -/
theorem sortCandidates_map {f : Pdr → MatchCandidate} (hf : ∀ pdr, (f pdr).pdrId = pdr.id.value)
    (pdrs : List Pdr) :
    sortCandidates (pdrs.map f)
      = (pdrs.insertionSort fun a b => a.id.value ≤ b.id.value).map f := by
  refine (List.map_insertionSort _ _ f pdrs fun a _ b _ => ?_).symm
  rw [hf, hf]

theorem candidates_renumbered (number : Pdr → UInt32) (pdrs : List Pdr) (packet : Packet) :
    Renumbered (sortCandidates (selectPdr pdrs packet).1)
      (sortCandidates (selectPdr (pdrs.map (Pdr.renumbered number)) packet).1) := by
  rw [selectPdr_eq, selectPdr_eq, List.map_map, sortCandidates_map fun _ => rfl,
    sortCandidates_map fun _ => rfl]
  unfold Renumbered
  rw [List.forall₂_map_left_iff, List.forall₂_map_right_iff, List.forall₂_same]
  exact fun pdr _ => evaluateCandidate_renumbered number pdr packet

/-- The same PDR wins. -/
theorem winner_renumbered {pdrs : List Pdr} (h : OrdersOverlapping number pdrs) (packet : Packet) :
    (selectPdr (pdrs.map (Pdr.renumbered number)) packet).2
      = (selectPdr pdrs packet).2.map (Pdr.renumbered number) := by
  rw [selectPdr_eq, selectPdr_eq, List.filter_map]
  refine firstMin_map _ fun a ha b hb => ?_
  obtain ⟨ha, hpa⟩ := mem_filter_matched.mp ha
  obtain ⟨hb, hpb⟩ := mem_filter_matched.mp hb
  -- two PDRs that match one packet overlap
  have horder := h a ha b hb (matchSpacesOverlap_of_matches hpa hpb)
  rw [UInt32.lt_iff_toNat_lt, UInt32.lt_iff_toNat_lt] at horder
  exact horder

end Selection

/-! ## Two runs -/

theorem pdrChange_renumbered [InetText] {limits : CapacityLimits} {number : Pdr → UInt32}
    {rules : RuleSet} (h : OrdersOverlapping number rules.pdrs) :
    PdrChange Renumbered (fun _ => True) limits rules (rules.renumbered number) where
  rest := rfl
  valid := (ruleSetValid_renumbered h).symm
  candidates packet _ := candidates_renumbered number rules.pdrs packet
  winner packet _ := by
    rw [show (rules.renumbered number).pdrs = rules.pdrs.map (Pdr.renumbered number) from rfl,
      winner_renumbered h, Option.map_map]
    rfl

/-- The same call, with a renumbering of the PDRs of an install that keeps
the order of overlapping ones. -/
inductive CallRenumbered : PipelineCall → PipelineCall → Prop where
  | install {rules : RuleSet} {number : Pdr → UInt32} (h : OrdersOverlapping number rules.pdrs) :
      CallRenumbered (.install rules) (.install (rules.renumbered number))
  | process (packet : Packet) (runId scenarioId : String) :
      CallRenumbered (.process packet runId scenarioId) (.process packet runId scenarioId)

theorem CallRenumbered.changed [InetText] {limits : CapacityLimits} {call call' : PipelineCall}
    (h : CallRenumbered call call') :
    CallChanged Renumbered (fun _ => True) limits call call' := by
  cases h with
  | install h => exact .install (pdrChange_renumbered h)
  | process packet runId scenarioId => exact .process trivial runId scenarioId

/-- **Precedences are ordinal, and only between overlapping PDRs.** A run
whose installs renumber the PDRs, each in its own way but with overlapping
PDRs in the same order, accepts the same installs and answers every packet
alike: the decisions differ in the precedences of their candidates and in
nothing else, and the runtime state, the reports, the sinks and the events
are equal after every call. -/
theorem precedences_ordinal [InetText] (limits : CapacityLimits) {calls calls' : List PipelineCall}
    (hcalls : List.Forall₂ CallRenumbered calls calls') :
    ∃ es p es' p',
      run PacketPipeline.exec (new limits) calls = some (es, p) ∧
      run PacketPipeline.exec (new limits) calls' = some (es', p') ∧
      List.Forall₂ (EventsRelated CallRenumbered (ReplyRelated Renumbered)
        (SameTreatment Renumbered)) es es' ∧
      SameTreatment Renumbered p p' := by
  have hempty : Renumbered [] [] := .nil
  exact changed_runs hempty (fun _ _ h => h.changed) hcalls

/-- PDR 10 before PDR 11, with nothing in between. -/
def tight (pdr : Pdr) : UInt32 := if pdr.id.value = 10 then 0 else 1

theorem broadRules_tight : OrdersOverlapping tight broadRules.pdrs := by
  intro a ha b hb hoverlap
  simp only [broadRules, basicRules, List.map_cons, List.map_nil, List.cons_append, List.nil_append,
    List.mem_cons, List.not_mem_nil, or_false] at ha hb
  rcases ha with rfl | rfl
  all_goals
    rcases hb with rfl | rfl
    all_goals decide

theorem precedences_ordinal_broad :
    validateRuleSet broadRules {} = .ok () ∧
      (broadRules.renumbered tight).pdrs.map (·.precedence) = [0, 1] ∧
      ∃ es p es' p',
        run (@exec dottedText) (new {}) [.install broadRules, .process uplinkPacket "r" "p"]
          = some (es, p) ∧
        run (@exec dottedText) (new {})
          [.install (broadRules.renumbered tight), .process uplinkPacket "r" "p"]
          = some (es', p') ∧
        List.Forall₂ (EventsRelated CallRenumbered (ReplyRelated Renumbered)
          (SameTreatment Renumbered)) es es' ∧
        SameTreatment Renumbered p p' :=
  ⟨by decide, by decide, @precedences_ordinal dottedText {} _ _
    (.cons (.install broadRules_tight) (.cons (.process uplinkPacket "r" "p") .nil))⟩

end PacketPipeline

end UpfPolicy
