/-
UpfPolicy.Adapters.FileRunTheorems — what `runFiles` ends in, whatever the
two files hold.

The two readers have a `try` block each, and `process` never dereferences a
null pointer on a ruleset that was installed (`WellFormed.processAll_total`).
Two ways out of the result remain. An unchecked access to a member of a
port range or a tunnel that is not there is undefined, and no handler
catches that. And the run ID and the scenario ID are read after both `try`
blocks, so that a label which is not a text throws out of `runFiles`.
`runFiles_settles_iff` says that there is no third.
-/
import UpfPolicy.Adapters.DecodingTheorems

namespace UpfPolicy

open Support

/-! ## Packets -/

/-- The loop over the packets reaches its end. -/
theorem PacketPipeline.WellFormed.processAll_total [InetText] {p : PacketPipeline}
    (h : p.WellFormed) (runId scenarioId : String) (packets : List Packet) :
    ∃ out, processAll p runId scenarioId packets = some out := by
  induction packets generalizing p with
  | nil => exact ⟨_, rfl⟩
  | cons packet rest ih =>
    obtain ⟨d, q, hprocess, hconfig, hexit⟩ := h.process_exit packet runId scenarioId
    obtain ⟨out, hout⟩ := ih (h.of_exit hconfig hexit)
    exact ⟨(d :: out.1, out.2), by simp [processAll, hprocess, hout]⟩

/-! ## Labels -/

/-- A label of the run is a text, or left to its default. -/
def LabelFits (root : Json) (key : String) : Prop :=
  ∀ v, root.member? key = some v → ∃ s, v = .string s

/-- A label that does not fit throws. -/
theorem valueOr_cases (members : List (String × Json)) (key text : String) :
    (∃ s, (Json.object members).valueOr key text = .value s) ∧ LabelFits (.object members) key ∨
      (∃ w, (Json.object members).valueOr key text = .threw w) ∧
        ¬ LabelFits (.object members) key := by
  cases hlookup : members.lookup key with
  | none =>
    refine .inl ⟨⟨text, by rw [Json.valueOr, hlookup]⟩, fun v hv => ?_⟩
    cases hlookup.symm.trans hv
  | some v =>
    cases v with
    | string s =>
      refine .inl ⟨⟨s, by rw [Json.valueOr, hlookup]; rfl⟩, fun v hv => ?_⟩
      cases hlookup.symm.trans hv
      exact ⟨s, rfl⟩
    | null | boolean | integer | unsigned | float | array | object =>
      refine .inr ⟨⟨_, by rw [Json.valueOr, hlookup]; rfl⟩, fun hfits => ?_⟩
      obtain ⟨s, hs⟩ := hfits _ hlookup
      cases hs

/-! ## The two files -/

/-- The computation returns a value or a failure. -/
def Support.Outcome.Settles {α : Type} (x : Outcome α) : Prop :=
  (∃ a, x = .value a) ∨ ∃ e, x = .failed e

section Settles

variable {α β : Type}

theorem settles_value (a : α) : (Outcome.value a).Settles := .inl ⟨a, rfl⟩

theorem settles_failed (e : String) : (Outcome.failed e : Outcome α).Settles := .inr ⟨e, rfl⟩

theorem not_settles_threw (w : String) : ¬ (Outcome.threw w : Outcome α).Settles := by
  rintro (⟨a, h⟩ | ⟨e, h⟩) <;> cases h

theorem not_settles_undefined : ¬ (Outcome.undefined : Outcome α).Settles := by
  rintro (⟨a, h⟩ | ⟨e, h⟩) <;> cases h

theorem settles_map {f : α → β} {x : Outcome α} : (f <$> x).Settles ↔ x.Settles := by
  cases x with
  | value a => exact iff_of_true (settles_value _) (settles_value a)
  | failed e => exact iff_of_true (settles_failed e) (settles_failed e)
  | threw w => exact iff_of_false (not_settles_threw w) (not_settles_threw w)
  | undefined => exact iff_of_false not_settles_undefined not_settles_undefined

/-- The labels are read after both `try` blocks. -/
theorem labels_settle_iff {members : List (String × Json)}
    {rest : String → String → Outcome α}
    (hrest : ∀ runId scenarioId, (rest runId scenarioId).Settles) :
    ((Json.object members).valueOr "runId" "file-run" >>= fun runId =>
        (Json.object members).valueOr "scenarioId" "local-files" >>= rest runId).Settles ↔
      LabelFits (.object members) "runId" ∧ LabelFits (.object members) "scenarioId" := by
  obtain ⟨⟨runId, hrun⟩, hfits⟩ | ⟨⟨w, hrun⟩, hnot⟩ := valueOr_cases members "runId" "file-run"
  · rw [hrun, Outcome.value_bind]
    obtain ⟨⟨scenarioId, hscenario⟩, hfits'⟩ | ⟨⟨w, hscenario⟩, hnot⟩ :=
      valueOr_cases members "scenarioId" "local-files"
    · rw [hscenario, Outcome.value_bind]
      exact iff_of_true (hrest runId scenarioId) ⟨hfits, hfits'⟩
    · rw [hscenario, Outcome.threw_bind]
      exact iff_of_false (not_settles_threw w) fun h => hnot h.2
  · rw [hrun, Outcome.threw_bind]
    exact iff_of_false (not_settles_threw w) fun h => hnot h.1

end Settles

section Files

variable [InetText] [InetPton] [FloatCast] [ArgumentOrder] {files : String → FileContent}
  {rulesPath packetsPath : String}

/-- No access to a missing member is left unchecked, and the labels fit
where they are read. -/
structure Covered (rulesJson packetsJson : Json) : Prop where
  rules : Grade.ending (rulesSites rulesJson) ≠ .undefined
  packets : Grade.ending (packetsSites packetsJson) ≠ .undefined
  labels : ∀ rules, parseRules rulesJson = .value rules → validateRuleSet rules {} = .ok () →
    Grade.ending (packetsSites packetsJson) = .returns →
      LabelFits packetsJson "runId" ∧ LabelFits packetsJson "scenarioId"

omit [InetText] [FloatCast] in
/-- A document whose packets are read is an object. -/
theorem object_of_packets {packetsJson : Json}
    (h : Grade.ending (packetsSites packetsJson) = .returns) :
    ∃ members, packetsJson = .object members := by
  cases packetsJson with
  | object members => exact ⟨members, rfl⟩
  | null | boolean | integer | unsigned | float | string | array => cases h

omit [InetText] in
/-- A run in which a reader stops reads no label. -/
theorem covered_of_stops {rulesJson packetsJson : Json}
    (hrules : Grade.ending (rulesSites rulesJson) ≠ .undefined)
    (hpackets : Grade.ending (packetsSites packetsJson) ≠ .undefined)
    (hstops : (∃ e, parseRules rulesJson = .failed e) ∨
      Grade.ending (packetsSites packetsJson) = .stops) : Covered rulesJson packetsJson := by
  refine ⟨hrules, hpackets, fun rules hvalue _ hreturns => ?_⟩
  obtain ⟨e, he⟩ | hend := hstops
  · cases he.symm.trans hvalue
  · cases hend.symm.trans hreturns

omit [InetText] [InetPton] [FloatCast] [ArgumentOrder] in
/-- What follows the two readers: the ruleset is validated, and the labels of
a valid one are read. -/
theorem install_settles_iff {α : Type} {rules : RuleSet} {members : List (String × Json)}
    {rest : String → String → Outcome α}
    (hrest : ∀ runId scenarioId, (rest runId scenarioId).Settles) :
    (Outcome.ofExcept ((PacketPipeline.new {}).install rules).1 >>= fun _ =>
        (Json.object members).valueOr "runId" "file-run" >>= fun runId =>
        (Json.object members).valueOr "scenarioId" "local-files" >>= rest runId).Settles ↔
      (validateRuleSet rules {} = .ok () →
        LabelFits (.object members) "runId" ∧ LabelFits (.object members) "scenarioId") := by
  cases hvalid : validateRuleSet rules {} with
  | error e =>
    have hrejected : ((PacketPipeline.new {}).install rules).1 = .error e := by
      simp [PacketPipeline.install, PacketPipeline.new, hvalid]
    rw [hrejected]
    exact iff_of_true (settles_failed e) (fun h => by cases h)
  | ok =>
    have haccepted : ((PacketPipeline.new {}).install rules).1 = .ok () := by
      simp [PacketPipeline.install, PacketPipeline.new, hvalid]
    rw [haccepted]
    exact (labels_settle_iff hrest).trans ⟨fun h _ => h, fun h => h rfl⟩

/-- **Both files hold a document**: every way out is a result exactly when
the documents are covered. -/
theorem fileRun_settles_iff {rulesJson packetsJson : Json}
    (hrules : files rulesPath = .document rulesJson)
    (hpackets : files packetsPath = .document packetsJson) :
    (fileRun files rulesPath packetsPath).Settles ↔ Covered rulesJson packetsJson := by
  unfold fileRun readJson
  rw [hrules, hpackets]
  simp only [Outcome.result, Outcome.value_bind, Outcome.ofExcept]
  have hr := (readRules_reads rulesJson).rescue_cases
  have hk := (readPackets_reads packetsJson).rescue_cases
  rw [← parseRules] at hr
  rw [← parsePackets] at hk
  obtain ⟨rules, hr, hrend⟩ | ⟨e, hr, hrend⟩ | ⟨hr, hrend⟩ := hr
  · rw [hr]
    obtain ⟨packets, hk, hkend⟩ | ⟨e, hk, hkend⟩ | ⟨hk, hkend⟩ := hk
    · rw [hk]
      simp only [Outcome.value_bind]
      obtain ⟨members, rfl⟩ := object_of_packets hkend
      have hcovered : Covered rulesJson (.object members) ↔ (validateRuleSet rules {} = .ok () →
          LabelFits (.object members) "runId" ∧ LabelFits (.object members) "scenarioId") := by
        constructor
        · intro h hvalid
          exact h.labels rules hr hvalid hkend
        · intro h
          refine ⟨by rw [hrend]; decide, by rw [hkend]; decide, fun rules' hr' hvalid _ => ?_⟩
          cases hr.symm.trans hr'
          exact h hvalid
      rw [hcovered]
      have hwf := ((PacketPipeline.wellFormed_new {}).install_outcome rules).wellFormed
        (PacketPipeline.wellFormed_new {})
      refine install_settles_iff fun runId scenarioId => ?_
      obtain ⟨out, hout⟩ := hwf.processAll_total runId scenarioId packets
      rw [hout]
      exact settles_value _
    · rw [hk]
      exact iff_of_true (settles_failed e)
        (covered_of_stops (by rw [hrend]; decide) (by rw [hkend]; decide) (.inr hkend))
    · rw [hk]
      exact iff_of_false not_settles_undefined fun h => h.packets hkend
  · rw [hr]
    obtain ⟨packets, hk, hkend⟩ | ⟨e', hk, hkend⟩ | ⟨hk, hkend⟩ := hk
    · rw [hk]
      exact iff_of_true (settles_failed e)
        (covered_of_stops (by rw [hrend]; decide) (by rw [hkend]; decide) (.inl ⟨e, hr⟩))
    · rw [hk]
      exact iff_of_true (settles_failed e)
        (covered_of_stops (by rw [hrend]; decide) (by rw [hkend]; decide) (.inl ⟨e, hr⟩))
    · rw [hk]
      exact iff_of_false not_settles_undefined fun h => h.packets hkend
  · rw [hr]
    exact iff_of_false not_settles_undefined fun h => h.rules hrend

/-- **File input ends in a result** exactly when, of two files that both
hold a document, no port range and no tunnel lacks a member that is
reached, and the labels of a run that takes place are texts. -/
theorem runFiles_settles_iff :
    (runFiles files rulesPath packetsPath).Settles ↔
      ∀ rulesJson packetsJson, files rulesPath = .document rulesJson →
        files packetsPath = .document packetsJson → Covered rulesJson packetsJson := by
  rw [runFiles, settles_map]
  by_cases hboth : ∃ rulesJson packetsJson, files rulesPath = .document rulesJson ∧
      files packetsPath = .document packetsJson
  · obtain ⟨rulesJson, packetsJson, hrules, hpackets⟩ := hboth
    rw [fileRun_settles_iff hrules hpackets]
    constructor
    · intro h _ _ hrules' hpackets'
      cases hrules.symm.trans hrules'
      cases hpackets.symm.trans hpackets'
      exact h
    · intro h
      exact h rulesJson packetsJson hrules hpackets
  · refine iff_of_true ?_ fun rulesJson packetsJson hrules hpackets =>
      absurd ⟨rulesJson, packetsJson, hrules, hpackets⟩ hboth
    unfold fileRun readJson
    cases hrules : files rulesPath with
    | unreadable | malformed =>
      cases files packetsPath <;> exact settles_failed _
    | document rulesJson =>
      cases hpackets : files packetsPath with
      | unreadable | malformed => exact settles_failed _
      | document packetsJson => exact absurd ⟨rulesJson, packetsJson, hrules, hpackets⟩ hboth

end Files

/-- A packets document whose run ID is a number. -/
def numberedPackets : Json :=
  .object [("runId", .unsigned 5), ("scenarioId", .string "counted"), ("packets", .array [])]

def numberedFiles (path : String) : FileContent :=
  if path = "rules.json" then .document (countedRules 1 1000) else .document numberedPackets

/-- The run ID throws out of `runFiles`. -/
theorem runFiles_settles_numbered :
    ¬ ∀ (files : String → FileContent) (rulesPath packetsPath : String),
      (@runFiles noFloats dottedPton secondFirst PacketPipeline.dottedText files rulesPath
        packetsPath).Settles := by
  intro h
  have hthrew : (@runFiles noFloats dottedPton secondFirst PacketPipeline.dottedText numberedFiles
      "rules.json" "packets.json").result.toOption.isSome = false := by decide +kernel
  obtain ⟨r, hr⟩ | ⟨e, he⟩ := h numberedFiles "rules.json" "packets.json"
  · rw [hr] at hthrew
    cases hthrew
  · rw [he] at hthrew
    cases hthrew

/-- A port range whose first port is no number, and which has no last one. -/
def lopsidedRules : Json :=
  .object [
    ("sessionId", .string "session-1"), ("rulesetVersion", .unsigned 3),
    ("pdrs", .array [.object [
      ("id", .unsigned 10), ("precedence", .unsigned 100), ("sourceInterface", .string "N3"),
      ("teid", .unsigned 1001), ("uePrefix", .string "10.10.0.0/16"),
      ("localPorts", .object [("first", .string "x")]), ("farId", .unsigned 20)]])]

/-- The order of the two arguments decides how it ends. -/
example : (@parseRules noFloats dottedPton secondFirst lopsidedRules).ending = .undefined := by
  decide +kernel

example : (@parseRules noFloats dottedPton
    ⟨fun _ => false, fun _ => false, fun _ => false, fun _ => false⟩ lopsidedRules).ending
    = .stops := by
  decide +kernel

end UpfPolicy
