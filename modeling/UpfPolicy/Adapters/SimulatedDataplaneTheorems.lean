/-
UpfPolicy.Adapters.SimulatedDataplaneTheorems — the scripted adapter keeps
its identities apart.

The source works on texts; what it is for is a statement about pairs of an
update ID and a version. `key_inj` makes the two the same, whatever the
update IDs contain, and `exec_outcome` says what a call does in terms of
pairs only: it repeats a success, plays the next outcome of the script,
completes a delayed pair that is the latest, or refuses. Everything about
runs is read off that one lemma:

  * `History` is the invariant: the applied pairs are the ones confirmed to
    a caller, the delayed ones were answered DELAYED_SUCCESS, and the fresh
    results so far are the script, then successes;
  * `dataplane_contract` collects the four properties.
-/
import Mathlib.Data.List.GetD
import UpfPolicy.Adapters.SimulatedDataplane
import UpfPolicy.Support.Numerals
import UpfPolicy.Support.Runs

namespace UpfPolicy

open Support

/-- An update ID and a version. -/
abbrev UpdatePair := String × UInt64

/-- The pair a call is about. -/
def DataplaneCall.pair : DataplaneCall → UpdatePair
  | .apply updateId version _ => (updateId, version)
  | .completeDelayed updateId version _ _ => (updateId, version)

/-- The reply tells the caller that the pair is applied. -/
def DataplaneReply.Confirms : DataplaneReply → Prop
  | .applied result => result.outcome = .success
  | .completed done => done = true

namespace SimulatedDataplane

/-- The reply to a call about a pair that is applied already. -/
def confirmation : DataplaneCall → DataplaneReply
  | .apply .. => .applied {}
  | .completeDelayed .. => .completed true

/-! ## Identities -/

/-- **The key of a pair determines the pair.** -/
theorem key_inj {q q' : UpdatePair} (h : key q.1 q.2 = key q'.1 q'.2) : q = q' := by
  obtain ⟨hid, hversion⟩ := append_mark_repr_inj [] ':' rfl (by decide) h
  exact Prod.ext hid (UInt64.toNat_inj.mp hversion)

def Applied (d : SimulatedDataplane) (q : UpdatePair) : Prop := key q.1 q.2 ∈ d.applied

def Delayed (d : SimulatedDataplane) (q : UpdatePair) : Prop := key q.1 q.2 ∈ d.delayed

instance (d : SimulatedDataplane) (q : UpdatePair) : Decidable (d.Applied q) :=
  inferInstanceAs (Decidable (_ ∈ d.applied))

instance (d : SimulatedDataplane) (q : UpdatePair) : Decidable (d.Delayed q) :=
  inferInstanceAs (Decidable (_ ∈ d.delayed))

theorem mem_insert_key {keys : Finset String} {q r : UpdatePair} :
    key r.1 r.2 ∈ insert (key q.1 q.2) keys ↔ key r.1 r.2 ∈ keys ∨ r = q := by
  rw [Finset.mem_insert, or_comm]
  exact or_congr_right ⟨fun h => key_inj h, fun h => h ▸ rfl⟩

theorem mem_erase_key {keys : Finset String} {q r : UpdatePair} :
    key r.1 r.2 ∈ keys.erase (key q.1 q.2) ↔ key r.1 r.2 ∈ keys ∧ r ≠ q := by
  rw [Finset.mem_erase, and_comm]
  exact and_congr_right fun _ => not_congr ⟨fun h => key_inj h, fun h => h ▸ rfl⟩

theorem record_applied (d : SimulatedDataplane) (q r : UpdatePair) (result : AdapterResult) :
    (d.record (key q.1 q.2) result).Applied r ↔
      d.Applied r ∨ (r = q ∧ result.outcome = .success) := by
  unfold record Applied
  by_cases h : result.outcome = .success
  · rw [if_pos h, mem_insert_key]
    simp [h]
  · rw [if_neg h]
    simp [h]

theorem record_delayed (d : SimulatedDataplane) (q r : UpdatePair) (result : AdapterResult) :
    (d.record (key q.1 q.2) result).Delayed r ↔
      d.Delayed r ∨ (r = q ∧ result.outcome = .delayedSuccess) := by
  unfold record Delayed
  by_cases h : result.outcome = .delayedSuccess
  · rw [if_pos h, mem_insert_key]
    simp [h]
  · rw [if_neg h]
    simp [h]

/-! ## One call -/

/-- The script, and SUCCESS behind its end. -/
def scripted (outcomes : List AdapterResult) (i : Nat) : AdapterResult := outcomes.getD i {}

/-- Everything a call can do, in terms of pairs. -/
inductive CallOutcome (d : SimulatedDataplane) (call : DataplaneCall) (reply : DataplaneReply)
    (d' : SimulatedDataplane) : Prop where
  | repeated (happlied : d.Applied call.pair) (hreply : reply = confirmation call) (hsame : d' = d)
  | played {updateId : String} {version : UInt64} {attempt : UInt32} {result : AdapterResult}
      (hcall : call = .apply updateId version attempt) (hnew : ¬ d.Applied call.pair)
      (hreply : reply = .applied result) (hresult : result = scripted d.outcomes d.next)
      (hscript : d'.outcomes = d.outcomes)
      (hnext : d'.next = min (d.next + 1) (max d.next d.outcomes.length))
      (happlied : ∀ q, d'.Applied q ↔ d.Applied q ∨ (q = call.pair ∧ result.outcome = .success))
      (hdelayed : ∀ q, d'.Delayed q ↔
        d.Delayed q ∨ (q = call.pair ∧ result.outcome = .delayedSuccess))
  | completed {updateId : String} {version : UInt64}
      (hcall : call = .completeDelayed updateId version updateId version)
      (hnew : ¬ d.Applied call.pair) (hwas : d.Delayed call.pair) (hreply : reply = .completed true)
      (hscript : d'.outcomes = d.outcomes) (hnext : d'.next = d.next)
      (happlied : ∀ q, d'.Applied q ↔ d.Applied q ∨ q = call.pair)
      (hdelayed : ∀ q, d'.Delayed q ↔ d.Delayed q ∧ q ≠ call.pair)
  | refused {updateId : String} {version : UInt64} {latestUpdateId : String}
      {latestVersion : UInt64}
      (hcall : call = .completeDelayed updateId version latestUpdateId latestVersion)
      (hnew : ¬ d.Applied call.pair) (hreply : reply = .completed false) (hsame : d' = d)

theorem takeOutcome_spec (d : SimulatedDataplane) :
    d.takeOutcome = (scripted d.outcomes d.next,
      { d with next := min (d.next + 1) (max d.next d.outcomes.length) }) := by
  unfold takeOutcome scripted
  split
  · rename_i h
    rw [List.getD_eq_getElem _ _ h]
    congr 2
    omega
  · rename_i h
    rw [List.getD_eq_default _ _ (Nat.not_lt.mp h)]
    have hstay : min (d.next + 1) (max d.next d.outcomes.length) = d.next := by omega
    rw [hstay]

theorem apply_outcome (d : SimulatedDataplane) (updateId : String) (version : UInt64)
    (attempt : UInt32) :
    CallOutcome d (.apply updateId version attempt)
      (.applied (d.apply updateId version attempt).1) (d.apply updateId version attempt).2 := by
  unfold apply
  by_cases h : key updateId version ∈ d.applied
  · rw [if_pos h]
    exact .repeated h rfl rfl
  · rw [if_neg h, takeOutcome_spec]
    exact .played rfl h rfl rfl rfl rfl
      (fun q => record_applied _ (updateId, version) q _)
      (fun q => record_delayed _ (updateId, version) q _)

theorem completeDelayed_outcome (d : SimulatedDataplane) (updateId : String) (version : UInt64)
    (latestUpdateId : String) (latestVersion : UInt64) :
    CallOutcome d (.completeDelayed updateId version latestUpdateId latestVersion)
      (.completed (d.completeDelayed updateId version latestUpdateId latestVersion).1)
      (d.completeDelayed updateId version latestUpdateId latestVersion).2 := by
  unfold completeDelayed
  by_cases h : key updateId version ∈ d.applied
  · rw [if_pos h]
    exact .repeated h rfl rfl
  · rw [if_neg h]
    by_cases hstale : updateId ≠ latestUpdateId ∨ version ≠ latestVersion ∨
        key updateId version ∉ d.delayed
    · rw [if_pos hstale]
      exact .refused rfl h rfl rfl
    · rw [if_neg hstale]
      simp only [not_or, not_not] at hstale
      obtain ⟨rfl, rfl, hdelayed⟩ := hstale
      exact .completed rfl h hdelayed rfl rfl rfl
        (fun q => mem_insert_key (q := (updateId, version)))
        (fun q => mem_erase_key (q := (updateId, version)))

/-- **Everything a call can do.** -/
theorem exec_outcome {d d' : SimulatedDataplane} {call : DataplaneCall} {reply : DataplaneReply}
    (h : d.exec call = some (reply, d')) : CallOutcome d call reply d' := by
  cases call with
  | apply updateId version attempt =>
    cases h
    exact apply_outcome d updateId version attempt
  | completeDelayed updateId version latestUpdateId latestVersion =>
    cases h
    exact completeDelayed_outcome d updateId version latestUpdateId latestVersion

/-! ## Histories -/

abbrev DataplaneEvent := Event SimulatedDataplane DataplaneCall DataplaneReply

/-- A call for the pair was told that it is applied. -/
def Confirmed (es : List DataplaneEvent) (q : UpdatePair) : Prop :=
  ∃ e ∈ es, e.input.pair = q ∧ e.output.Confirms

/-- An `apply` for the pair was answered DELAYED_SUCCESS. -/
def AnsweredDelayed (es : List DataplaneEvent) (q : UpdatePair) : Prop :=
  ∃ e ∈ es, ∃ attempt result, e.input = .apply q.1 q.2 attempt ∧ e.output = .applied result ∧
    result.outcome = .delayedSuccess

/-- The result of an `apply` on a pair not applied before the call. -/
def freshResult (e : DataplaneEvent) : Option AdapterResult :=
  match e.input, e.output with
  | .apply updateId version _, .applied result =>
    if e.before.Applied (updateId, version) then none else some result
  | _, _ => none

def freshResults (es : List DataplaneEvent) : List AdapterResult := es.filterMap freshResult

theorem confirmed_snoc {es : List DataplaneEvent} {e : DataplaneEvent} {q : UpdatePair} :
    Confirmed (es ++ [e]) q ↔ Confirmed es q ∨ (e.input.pair = q ∧ e.output.Confirms) := by
  simp only [Confirmed, List.mem_append, List.mem_singleton, or_and_right, exists_or,
    exists_eq_left]

theorem answeredDelayed_mono {es : List DataplaneEvent} (e : DataplaneEvent) {q : UpdatePair}
    (h : AnsweredDelayed es q) : AnsweredDelayed (es ++ [e]) q := by
  obtain ⟨e', hmem, hrest⟩ := h
  exact ⟨e', List.mem_append_left _ hmem, hrest⟩

theorem freshResults_snoc (es : List DataplaneEvent) (e : DataplaneEvent) :
    freshResults (es ++ [e]) = freshResults es ++ (freshResult e).toList := by
  rw [freshResults, freshResults, List.filterMap_append]
  congr 1

/-- What the state says about the calls so far. -/
structure History (outcomes : List AdapterResult) (es : List DataplaneEvent)
    (d : SimulatedDataplane) : Prop where
  script : d.outcomes = outcomes
  next : d.next = min (freshResults es).length outcomes.length
  fresh : freshResults es = (List.range (freshResults es).length).map (scripted outcomes)
  applied : ∀ q, d.Applied q ↔ Confirmed es q
  delayed : ∀ q, d.Delayed q → AnsweredDelayed es q

theorem history_new (outcomes : List AdapterResult) : History outcomes [] (new outcomes) := by
  refine ⟨rfl, (Nat.zero_min _).symm, rfl, fun q => ?_, fun q h => ?_⟩
  · refine iff_of_false (Finset.notMem_empty _) ?_
    rintro ⟨e, hmem, -⟩
    cases hmem
  · exact absurd h (Finset.notMem_empty _)

/-- A call without a fresh result leaves what is said about the script. -/
theorem History.quiet {outcomes : List AdapterResult} {es : List DataplaneEvent}
    {d d' : SimulatedDataplane} {e : DataplaneEvent} (h : History outcomes es d)
    (hnone : freshResult e = none) (hscript : d'.outcomes = d.outcomes) (hnext : d'.next = d.next)
    (happlied : ∀ q, d'.Applied q ↔ d.Applied q ∨ (e.input.pair = q ∧ e.output.Confirms))
    (hdelayed : ∀ q, d'.Delayed q → d.Delayed q) : History outcomes (es ++ [e]) d' := by
  have hsame : freshResults (es ++ [e]) = freshResults es := by
    rw [freshResults_snoc, hnone, Option.toList_none, List.append_nil]
  refine ⟨hscript.trans h.script, ?_, ?_, fun q => ?_, fun q hq => ?_⟩
  · rw [hsame, hnext, h.next]
  · rw [hsame]
    exact h.fresh
  · rw [happlied, h.applied, confirmed_snoc]
  · exact answeredDelayed_mono e (h.delayed q (hdelayed q hq))

/-- Reading past the end of a script is reading SUCCESS, so the cursor may
as well count on. -/
theorem scripted_min (outcomes : List AdapterResult) (n : Nat) :
    scripted outcomes (min n outcomes.length) = scripted outcomes n := by
  rcases Nat.le_total n outcomes.length with hle | hle
  · rw [Nat.min_eq_left hle]
  · rw [Nat.min_eq_right hle, scripted, scripted, List.getD_eq_default _ _ (Nat.le_refl _),
      List.getD_eq_default _ _ hle]

/-- The step of the history: one case for each outcome of a call. -/
theorem History.step {outcomes : List AdapterResult} {es : List DataplaneEvent}
    {d d' : SimulatedDataplane} {call : DataplaneCall} {reply : DataplaneReply}
    (h : History outcomes es d) (hcall : CallOutcome d call reply d') :
    History outcomes (es ++ [⟨d, call, reply, d'⟩]) d' := by
  cases hcall with
  | repeated happlied hreply hsame =>
    subst hreply hsame
    refine h.quiet ?_ rfl rfl (fun q => ?_) (fun q hq => hq)
    · cases call with
      | apply updateId version attempt => exact if_pos happlied
      | completeDelayed => rfl
    · refine ⟨Or.inl, ?_⟩
      rintro (hq | ⟨rfl, -⟩)
      · exact hq
      · exact happlied
  | @played updateId version attempt result hcall hnew hreply hresult hscript hnext happlied
      hdelayed =>
    subst hcall hreply
    have hfresh : freshResults (es ++ [⟨d, .apply updateId version attempt, .applied result, d'⟩])
        = freshResults es ++ [result] := by
      rw [freshResults_snoc]
      congr 1
      exact congrArg Option.toList (if_neg hnew)
    have hplayed : result = scripted outcomes (freshResults es).length := by
      rw [hresult, h.script, h.next, scripted_min]
    refine ⟨hscript.trans h.script, ?_, ?_, fun q => ?_, fun q hq => ?_⟩
    · rw [hfresh, hnext, h.script, h.next, List.length_append, List.length_singleton]
      omega
    · rw [hfresh, List.length_append, List.length_singleton, List.range_succ, List.map_append,
        ← h.fresh, hplayed]
      rfl
    · rw [happlied, h.applied, confirmed_snoc]
      exact or_congr_right (and_congr_left fun _ => eq_comm)
    · rcases (hdelayed q).mp hq with hold | ⟨rfl, houtcome⟩
      · exact answeredDelayed_mono _ (h.delayed q hold)
      · exact ⟨_, List.mem_append_right _ (List.mem_singleton_self _), attempt, result, rfl, rfl,
          houtcome⟩
  | completed hcall _ _ hreply hscript hnext happlied hdelayed =>
    subst hcall hreply
    refine h.quiet rfl hscript hnext (fun q => ?_) (fun q hq => ((hdelayed q).mp hq).1)
    rw [happlied]
    refine or_congr_right ⟨fun hq => ⟨hq.symm, rfl⟩, fun hq => hq.1.symm⟩
  | refused hcall _ hreply hsame =>
    subst hcall hreply hsame
    refine h.quiet rfl rfl rfl (fun q => ?_) (fun q hq => hq)
    refine ⟨Or.inl, ?_⟩
    rintro (hq | ⟨-, hfalse⟩)
    · exact hq
    · cases hfalse

theorem history_of_recorded {outcomes : List AdapterResult} {es : List DataplaneEvent}
    {d : SimulatedDataplane} (h : Recorded exec (new outcomes) es d) : History outcomes es d := by
  induction h with
  | nil => exact history_new outcomes
  | snoc _ hstep ih => exact ih.step (exec_outcome hstep)

/-- Every event of a run is a call from the state its predecessors left. -/
theorem event_of_recorded {outcomes : List AdapterResult} {es pre post : List DataplaneEvent}
    {e : DataplaneEvent} {d : SimulatedDataplane} (h : Recorded exec (new outcomes) es d)
    (hcut : es = pre ++ e :: post) :
    History outcomes pre e.before ∧ CallOutcome e.before e.input e.output e.after := by
  obtain ⟨s, hpre, hpost⟩ := h.split hcut
  obtain ⟨rfl, hstep, -⟩ := hpost.uncons
  exact ⟨history_of_recorded hpre, exec_outcome hstep⟩

/-- A script of which `n` outcomes were read, with SUCCESS behind its end. -/
theorem map_scripted_range (outcomes : List AdapterResult) (n : Nat) :
    (List.range n).map (scripted outcomes)
      = outcomes.take n ++ List.replicate (n - outcomes.length) ({} : AdapterResult) := by
  induction n with
  | zero => simp
  | succ n ih =>
    rw [List.range_succ, List.map_append, ih]
    rcases Nat.lt_or_ge n outcomes.length with hlt | hge
    · have hpad : n - outcomes.length = 0 := by omega
      have hpad' : n + 1 - outcomes.length = 0 := by omega
      have hread : scripted outcomes n = outcomes[n] := List.getD_eq_getElem _ _ hlt
      rw [hpad, hpad', ← List.take_append_getElem hlt, List.map_singleton, hread]
      simp
    · have hpad : n + 1 - outcomes.length = (n - outcomes.length) + 1 := by omega
      have hread : scripted outcomes n = {} := List.getD_eq_default _ _ hge
      rw [hpad, List.take_of_length_le hge, List.take_of_length_le (by omega),
        List.replicate_succ', List.append_assoc, List.map_singleton, hread]

/-! ## The contract -/

/-- What a caller may rely on. -/
structure Contract (outcomes : List AdapterResult) (es : List DataplaneEvent) : Prop where
  /-- A pair is applied when, and only when, a caller was told so. -/
  applied_iff : ∀ pre e post, es = pre ++ e :: post →
    ∀ q, e.before.Applied q ↔ Confirmed pre q
  /-- Once confirmed, every call for the pair confirms it again and changes
  nothing. -/
  stable : ∀ pre e post, es = pre ++ e :: post → Confirmed pre e.input.pair →
    e.output = confirmation e.input ∧ e.after = e.before
  /-- Only the latest pair is completed, and only after it was delayed. -/
  latest : ∀ pre e post updateId version latestUpdateId latestVersion, es = pre ++ e :: post →
    e.input = .completeDelayed updateId version latestUpdateId latestVersion →
    e.output = .completed true → ¬ Confirmed pre (updateId, version) →
    (updateId, version) = (latestUpdateId, latestVersion) ∧
      AnsweredDelayed pre (updateId, version)
  /-- A call leaves every other pair alone. -/
  separate : ∀ e ∈ es, ∀ q, q ≠ e.input.pair →
    (e.after.Applied q ↔ e.before.Applied q) ∧ (e.after.Delayed q ↔ e.before.Delayed q)
  /-- The fresh results are the script, then successes. -/
  fresh : freshResults es = outcomes.take (freshResults es).length
    ++ List.replicate ((freshResults es).length - outcomes.length) ({} : AdapterResult)

theorem CallOutcome.stable {d d' : SimulatedDataplane} {call : DataplaneCall}
    {reply : DataplaneReply} (h : CallOutcome d call reply d') (happlied : d.Applied call.pair) :
    reply = confirmation call ∧ d' = d := by
  cases h with
  | repeated _ hreply hsame => exact ⟨hreply, hsame⟩
  | played _ hnew => exact absurd happlied hnew
  | completed _ hnew => exact absurd happlied hnew
  | refused _ hnew => exact absurd happlied hnew

theorem CallOutcome.separate {d d' : SimulatedDataplane} {call : DataplaneCall}
    {reply : DataplaneReply} (h : CallOutcome d call reply d') {q : UpdatePair}
    (hq : q ≠ call.pair) : (d'.Applied q ↔ d.Applied q) ∧ (d'.Delayed q ↔ d.Delayed q) := by
  cases h with
  | repeated _ _ hsame => rw [hsame]; exact ⟨Iff.rfl, Iff.rfl⟩
  | played _ _ _ _ _ _ happlied hdelayed => simp [happlied, hdelayed, hq]
  | completed _ _ _ _ _ _ happlied hdelayed => simp [happlied, hdelayed, hq]
  | refused _ _ _ hsame => rw [hsame]; exact ⟨Iff.rfl, Iff.rfl⟩

/-- A completion of a pair not applied yet is one of the latest, delayed
pair. -/
theorem CallOutcome.latest {d d' : SimulatedDataplane} {updateId latestUpdateId : String}
    {version latestVersion : UInt64}
    (h : CallOutcome d (.completeDelayed updateId version latestUpdateId latestVersion)
      (.completed true) d') (hnew : ¬ d.Applied (updateId, version)) :
    (updateId, version) = (latestUpdateId, latestVersion) ∧ d.Delayed (updateId, version) := by
  cases h with
  | repeated happlied _ _ => exact absurd happlied hnew
  | played hcall => cases hcall
  | completed hcall _ hwas => cases hcall; exact ⟨rfl, hwas⟩
  | refused _ _ hreply => cases hreply

/-- **The simulated adapter keeps its contract** for every script and every
sequence of calls. -/
theorem dataplane_contract (outcomes : List AdapterResult) {es : List DataplaneEvent}
    {d : SimulatedDataplane} (h : Recorded exec (new outcomes) es d) : Contract outcomes es := by
  refine ⟨?_, ?_, ?_, ?_, ?_⟩
  · intro pre e post hcut
    exact (event_of_recorded h hcut).1.applied
  · intro pre e post hcut hconfirmed
    obtain ⟨hhistory, hcall⟩ := event_of_recorded h hcut
    exact hcall.stable ((hhistory.applied _).mpr hconfirmed)
  · intro pre e post updateId version latestUpdateId latestVersion hcut hinput houtput hnew
    obtain ⟨hhistory, hcall⟩ := event_of_recorded h hcut
    rw [hinput, houtput] at hcall
    obtain ⟨hpair, hdelayed⟩ := hcall.latest (mt (hhistory.applied _).mp hnew)
    exact ⟨hpair, hhistory.delayed _ hdelayed⟩
  · intro e he q hq
    obtain ⟨pre, post, hcut⟩ := List.append_of_mem he
    exact (event_of_recorded h hcut).2.separate hq
  · rw [← map_scripted_range]
    exact (history_of_recorded h).fresh

/-- The calls of `tests/state/adapter_tests.cpp`, under an update ID that
holds the separator and a digit. -/
def adapterRun : Option (List DataplaneEvent × SimulatedDataplane) :=
  run exec (new [{}, { outcome := .delayedSuccess, dueTimeMicros := 100 }])
    [.apply "u:1" 1 1, .apply "u:1" 1 2, .apply "u" 11 1, .completeDelayed "u" 11 "u" 11,
      .completeDelayed "old" 1 "u" 11]

theorem adapterRun_isSome : adapterRun.isSome = true := by decide +kernel

theorem dataplane_contract_tests :
    Contract [{}, { outcome := .delayedSuccess, dueTimeMicros := 100 }]
      (adapterRun.get adapterRun_isSome).1 :=
  dataplane_contract _ (recorded_of_run (Option.some_get adapterRun_isSome).symm)

end SimulatedDataplane

end UpfPolicy
