/-
UpfPolicy.Application.RateLimitTheorems — what a RATE_LIMITED packet shows.

`QosTheorems` bounds what a QER lets through. This module is about what it
turns away: for as long as a QER stays installed unchanged its bucket is one
metered history, through every `install` in between (`metered_of_kept`), so
a QER that started with a full bucket is short of tokens only where the
packets it was charged for, and the one it turns away, exceed the burst and
the rate of some window (`rateLimited_justified`). A flow that conforms to
the burst and the rate is therefore never turned away
(`conforming_not_limited`).
-/
import UpfPolicy.Application.QosTheorems

namespace UpfPolicy

open Support

namespace PacketPipeline

/-! ## A QER that stays installed -/

/-- The QER is one of the installed rules. -/
def HasQer (p : PacketPipeline) (qer : Qer) : Prop :=
  ∃ rules, p.rules = some rules ∧ qer ∈ rules.qers

/-- An accepted `install` that keeps the QER unchanged keeps its bucket. -/
theorem tokensOf_kept {p p' : PacketPipeline} {rules : RuleSet} {result : Except String Unit}
    {qer : Qer} (hwf : p.WellFormed) (hbefore : p.HasQer qer) (hafter : p'.HasQer qer)
    (houtcome : InstallOutcome p rules result p') : p'.tokensOf qer = p.tokensOf qer := by
  obtain ⟨old, hold, hqer⟩ := hbefore
  cases houtcome with
  | rejected _ _ hkept => rw [hkept]
  | accepted hvalid _ hinstalled =>
    obtain ⟨rules', hrules', hqer'⟩ := hafter
    rw [hinstalled] at hrules'
    cases hrules'
    obtain ⟨state, hstate⟩ := (hwf.aligned_of_rules hold).tokens hqer
    have hcarried : p.runtime.qerStore.carried qer.item = state :=
      (hwf.aligned_of_rules hold).qers.carried_of_mem (hwf.valid old hold).qerIds.qerKeys
        (List.mem_map_of_mem hqer) rfl rfl hstate
    have hentry := Store.entry_rebuilt p.runtime.qerStore hvalid.qerIds.qerKeys
      (List.mem_map_of_mem hqer')
    rw [hcarried] at hentry
    rw [tokensOf_of_entry hstate, hinstalled]
    exact tokensOf_of_entry hentry

/-- Along any run that keeps a QER installed its bucket is metered, with the
charges of the events. -/
theorem metered_of_kept [InetText] {p₀ p : PacketPipeline} {qer : Qer} (h₀ : p₀.WellFormed)
    (hqer : p₀.HasQer qer) {es : List PipelineEvent} (hrun : Recorded exec p₀ es p)
    (hkept : ∀ e ∈ es, e.after.HasQer qer) :
    p.WellFormed ∧ p.HasQer qer ∧
      ∃ log, qer.bucket.Metered (p₀.tokensOf qer).fill log (p.tokensOf qer).fill ∧
        ∀ a b, Bucket.spentIn a b log = Bucket.spentIn a b (qerCharges qer.id es) := by
  induction hrun with
  | nil => exact ⟨h₀, hqer, [], .nil, fun _ _ => rfl⟩
  | @snoc es s t call reply hprev hexec ih =>
    obtain ⟨hwf, hhas, log, hmetered, hspent⟩ := ih fun e he => hkept e (List.mem_append_left _ he)
    have hafter : t.HasQer qer := hkept ⟨s, call, reply, t⟩ (by simp)
    have hcharges : qerCharges qer.id (es ++ [⟨s, call, reply, t⟩])
        = qerCharges qer.id es ++ qerCharges qer.id [⟨s, call, reply, t⟩] :=
      List.filterMap_append
    refine ⟨hwf.exec hexec, hafter, ?_⟩
    cases hwf.exec_outcome hexec with
    | install hcall hreply houtcome =>
      subst hcall hreply
      refine ⟨log, tokensOf_kept hwf hhas hafter houtcome ▸ hmetered, fun a b => ?_⟩
      rw [hspent, hcharges, Bucket.spentIn_append]
      rfl
    | @process packet runId scenarioId d hcall hreply _ _ =>
      -- one packet is a run of `process` calls of its own
      subst hcall hreply
      obtain ⟨rules, hrules, hmem⟩ := hhas
      obtain ⟨-, -, last, hlast, hlastSpent⟩ := metered_of_recorded hwf hrules hmem
        (Recorded.snoc .nil hexec) fun e he =>
          ⟨(packet, runId, scenarioId), by rw [List.mem_singleton.mp he]; rfl⟩
      refine ⟨log ++ last, hmetered.append hlast, fun a b => ?_⟩
      rw [Bucket.spentIn_append, hspent, hlastSpent, hcharges, Bucket.spentIn_append]
      rfl

/-! ## Rejections -/

section Offers

variable [InetText]

/-- The arrival time and the size of a packet whose winner cites a QER. -/
def qerOffer (id : QerId) (e : PipelineEvent) : Option (Nat × Nat) :=
  match e.input with
  | .install _ => none
  | .process packet _ _ =>
    (e.before.winner packet).bind fun pdr =>
      if pdr.qerId = some id then
        some (packet.arrivalTimeMicros.toNat, packet.payloadBytes.toNat)
      else none

/-- The packet was turned away for its size. -/
def RateLimited (e : PipelineEvent) : Prop :=
  ∃ d, e.output = .decided d ∧ d.terminalResult = .rateLimited

/-- What a QER is charged for was offered to it. -/
theorem qerOffer_of_charge {id : QerId} {e : PipelineEvent} {c : Nat × Nat}
    (h : qerCharge id e = some c) : qerOffer id e = some c := by
  obtain ⟨⟨pdr, packet⟩, hcommitted, hcharge⟩ := Option.bind_eq_some_iff.mp h
  unfold committedPacket at hcommitted
  split at hcommitted
  · rename_i packet' runId scenarioId d hinput houtput
    split at hcommitted
    · obtain ⟨pdr', hwinner, heq⟩ := Option.map_eq_some_iff.mp hcommitted
      cases heq
      simp only [qerOffer, hinput, hwinner, Option.bind_some]
      exact hcharge
    · cases hcommitted
  · cases hcommitted

/-- No more is charged than was offered. -/
theorem spentIn_charges_le (id : QerId) (es : List PipelineEvent) (a b : Nat) :
    Bucket.spentIn a b (qerCharges id es) ≤ Bucket.spentIn a b (es.filterMap (qerOffer id)) := by
  induction es with
  | nil => simp [qerCharges]
  | cons e es ih =>
    rw [qerCharges] at ih ⊢
    cases hcharge : qerCharge id e with
    | none =>
      rw [List.filterMap_cons_none hcharge]
      cases hoffer : qerOffer id e with
      | none => rwa [List.filterMap_cons_none hoffer]
      | some c =>
        have hcons := Bucket.spentIn_append a b [c] (es.filterMap (qerOffer id))
        rw [List.filterMap_cons_some hoffer]
        exact Nat.le_trans ih (hcons ▸ Nat.le_add_left _ _)
    | some c =>
      rw [List.filterMap_cons_some hcharge, List.filterMap_cons_some (qerOffer_of_charge hcharge)]
      have hcharged := Bucket.spentIn_append a b [c] (es.filterMap (qerCharge id))
      have hoffered := Bucket.spentIn_append a b [c] (es.filterMap (qerOffer id))
      rw [List.singleton_append] at hcharged hoffered
      omega

end Offers

/-- A packet turned away for its size found too few tokens. -/
theorem level_lt_of_limited [InetText] {p p' : PacketPipeline} {packet : Packet}
    {d : PacketDecision} {qer : Qer} {rules : RuleSet} (hwf : p.WellFormed)
    (hrules : p.rules = some rules) (hqer : qer ∈ rules.qers) (hexit : ProcessExit p packet d p')
    (hresult : d.terminalResult = .rateLimited) {pdr : Pdr} (hwinner : p.winner packet = some pdr)
    (hcites : pdr.qerId = some qer.id) :
    (p.tokensOf qer).fill.last ≤ packet.arrivalTimeMicros.toNat ∧
      qer.bucket.level (p.tokensOf qer).fill packet.arrivalTimeMicros.toNat
        < packet.payloadBytes.toNat := by
  cases hexit with
  | limited hat _ hcited hdenied hfailure =>
    cases hrules.symm.trans hat.installed
    cases hwinner.symm.trans (hat.winner_eq hwf)
    have hfind : findQer rules qer.id = some qer :=
      (hwf.valid rules hrules).findQer_eq_some.mpr ⟨hqer, rfl⟩
    rw [citedQer, hcites, Option.bind_some, hfind] at hcited
    cases hcited
    have hlimited := meter_limited hdenied hfailure
    cases evaluateQer_outcome qer (p.tokensOf qer) packet.payloadBytes.toUInt64
        packet.arrivalTimeMicros with
    | limited _ hshort _ _ _ _ =>
      rw [payload_toNat] at hshort
      exact ⟨hlimited.forward, hshort⟩
    | closed _ _ _ hf _ => rw [meter, hf] at hfailure; cases hfailure
    | arithmetic _ _ _ _ hf _ => rw [meter, hf] at hfailure; cases hfailure
    | charged _ _ _ ha _ => rw [meter, ha] at hdenied; cases hdenied
  | rejected hwhy hrejected =>
    rw [hresult] at hrejected
    cases hrejected
    cases hwhy
  | denied _ _ _ _ hfailure hdenied => exact absurd (hdenied.symm.trans hresult) hfailure
  | overflow _ _ _ _ _ hother => rw [hresult] at hother; cases hother
  | reportsFull _ _ _ _ _ _ _ hother => rw [hresult] at hother; cases hother
  | sinkFull _ _ _ _ _ _ hother => rw [hresult] at hother; cases hother
  | dropped _ _ _ _ _ hother => rw [hresult] at hother; cases hother
  | forwarded _ _ _ _ _ _ hother =>
    rw [hresult] at hother
    generalize packet.ingress.opposite = out at hother
    cases out <;> cases hother

/-- A packet turned away after the events `pre` exceeds a window of what they
charged. -/
theorem exceeds_of_limited [InetText] {p₀ : PacketPipeline} {qer : Qer} (h₀ : p₀.WellFormed)
    (hqer : p₀.HasQer qer) (hfull : qer.burstBytes ≤ (p₀.tokensOf qer).tokensBytes)
    {pre : List PipelineEvent} {e : PipelineEvent} (hpre : Recorded exec p₀ pre e.before)
    (hkept : ∀ e ∈ pre, e.after.HasQer qer)
    (hexec : e.before.exec e.input = some (e.output, e.after)) (hlimited : RateLimited e)
    {t x : Nat} (hoffer : qerOffer qer.id e = some (t, x)) :
    ∃ a, (p₀.tokensOf qer).lastRefillMicros.toNat ≤ a ∧ a ≤ t ∧
      qer.burstBytes.toNat * 8000000 + qer.rateBitsPerSecond.toNat * (t - a)
        < (Bucket.spentIn a t (qerCharges qer.id pre) + x) * 8000000 := by
  obtain ⟨hwf, ⟨rules, hrules, hmem⟩, log, hmetered, hspent⟩ := metered_of_kept h₀ hqer hpre hkept
  obtain ⟨d, houtput, hresult⟩ := hlimited
  cases hwf.exec_outcome hexec with
  | install hcall => rw [qerOffer, hcall] at hoffer; cases hoffer
  | @process packet runId scenarioId d' hcall hreply _ hexit =>
    cases hreply.symm.trans houtput
    rw [qerOffer, hcall] at hoffer
    obtain ⟨pdr, hwinner, hif⟩ := Option.bind_eq_some_iff.mp hoffer
    obtain ⟨hcites, heq⟩ := Option.ite_none_right_eq_some.mp hif
    cases heq
    obtain ⟨hforward, hshort⟩ :=
      level_lt_of_limited hwf hrules hmem hexit hresult hwinner hcites
    obtain ⟨a, hsince, hupTo, hexceeds⟩ :=
      hmetered.rejected (UInt64.le_iff_toNat_le.mp hfull) hforward hshort
    rw [hspent] at hexceeds
    exact ⟨a, hsince, hupTo, hexceeds⟩

/-- **Every RATE_LIMITED packet exceeds a window.** From a state in which a
QER has a full bucket, and for as long as it stays installed: the packets it
was charged for in some window up to a packet it turns away, and that
packet, are more than the burst and the rate of the window allow. -/
theorem rateLimited_justified [InetText] {limits : CapacityLimits} {p₀ p : PacketPipeline}
    (hreach : Reachable exec (new limits) p₀) {qer : Qer} (hqer : p₀.HasQer qer)
    (hfull : qer.burstBytes ≤ (p₀.tokensOf qer).tokensBytes) {calls : List PipelineCall}
    {es pre post : List PipelineEvent} {e : PipelineEvent} (hrun : run exec p₀ calls = some (es, p))
    (hkept : ∀ e ∈ es, e.after.HasQer qer) (hsplit : es = pre ++ e :: post)
    (hlimited : RateLimited e) {t x : Nat} (hoffer : qerOffer qer.id e = some (t, x)) :
    ∃ a, (p₀.tokensOf qer).lastRefillMicros.toNat ≤ a ∧ a ≤ t ∧
      qer.burstBytes.toNat * 8000000 + qer.rateBitsPerSecond.toNat * (t - a)
        < (Bucket.spentIn a t (qerCharges qer.id pre) + x) * 8000000 := by
  obtain ⟨s, hpre, hpost⟩ := (recorded_of_run hrun).split hsplit
  obtain ⟨rfl, hexec, -⟩ := hpost.uncons
  exact exceeds_of_limited (wellFormed_of_reachable hreach) hqer hfull hpre
    (fun e' he' => hkept e' (by rw [hsplit]; simp [he'])) hexec hlimited hoffer

/-- The rules of the test builders on a new pipeline. -/
def basicPipeline : PacketPipeline := ((new {}).install basicRules).2

theorem reachable_basicPipeline : Reachable (@exec dottedText) (new {}) basicPipeline :=
  ⟨[.install basicRules], _, rfl⟩

/-- Two packets of 19000 and 2000 bytes at the same time, on a burst of
20000 bytes. -/
def burstRun : Option (List PipelineEvent × PacketPipeline) :=
  run (@exec dottedText) basicPipeline
    ([({ uplinkPacket with payloadBytes := 19000 }, "r", "s"),
      ({ uplinkPacket with payloadBytes := 2000 }, "r", "s")].map processCall)

theorem burstRun_isSome : burstRun.isSome = true := by decide +kernel

theorem burstRun_kept : ∀ e ∈ (burstRun.get burstRun_isSome).1,
    e.after.HasQer { id := ⟨30⟩, rateBitsPerSecond := 10000000, burstBytes := 20000 } := by
  have hrules : ∀ e ∈ (burstRun.get burstRun_isSome).1,
      e.after.rules.map (·.qers) = some basicRules.qers := by decide +kernel
  intro e he
  obtain ⟨rules, hinstalled, hqers⟩ := Option.map_eq_some_iff.mp (hrules e he)
  exact ⟨rules, hinstalled, by rw [hqers]; exact List.mem_singleton.mpr rfl⟩

theorem burstRun_limited :
    @RateLimited ((burstRun.get burstRun_isSome).1.get ⟨1, by decide +kernel⟩) :=
  ⟨_, rfl, by decide +kernel⟩

/-- The second packet is turned away: 21000 bytes in a window of no length. -/
theorem rateLimited_justified_burst :
    ∃ a, 0 ≤ a ∧ a ≤ 0 ∧ 20000 * 8000000 + 10000000 * (0 - a)
      < (Bucket.spentIn a 0 (@qerCharges dottedText ⟨30⟩
          ((burstRun.get burstRun_isSome).1.take 1)) + 2000) * 8000000 :=
  @rateLimited_justified dottedText {} basicPipeline _ reachable_basicPipeline
    { id := ⟨30⟩, rateBitsPerSecond := 10000000, burstBytes := 20000 }
    ⟨basicRules, rfl, List.mem_singleton.mpr rfl⟩ (by decide +kernel) _ _ _ [] _
    (Option.some_get burstRun_isSome).symm burstRun_kept
    (take_append_get_cons_drop _ ⟨1, by decide +kernel⟩) burstRun_limited 0 2000
    (by decide +kernel)

/-- **A conforming flow is never turned away**: if the packets offered to a
QER stay within its burst and its rate in every window, none of them is
RATE_LIMITED. -/
theorem conforming_not_limited [InetText] {limits : CapacityLimits} {p₀ p : PacketPipeline}
    (hreach : Reachable exec (new limits) p₀) {qer : Qer} (hqer : p₀.HasQer qer)
    (hfull : qer.burstBytes ≤ (p₀.tokensOf qer).tokensBytes) {calls : List PipelineCall}
    {es : List PipelineEvent} (hrun : run exec p₀ calls = some (es, p))
    (hkept : ∀ e ∈ es, e.after.HasQer qer)
    (hconforms : ∀ a b, Bucket.spentIn a b (es.filterMap (qerOffer qer.id)) * 8000000
      ≤ qer.burstBytes.toNat * 8000000 + qer.rateBitsPerSecond.toNat * (b - a))
    {e : PipelineEvent} (he : e ∈ es) (hoffered : (qerOffer qer.id e).isSome) :
    ¬ RateLimited e := by
  intro hlimited
  obtain ⟨⟨t, x⟩, hoffer⟩ := Option.isSome_iff_exists.mp hoffered
  obtain ⟨pre, post, hsplit⟩ := List.append_of_mem he
  obtain ⟨s, hpre, hpost⟩ := (recorded_of_run hrun).split hsplit
  obtain ⟨rfl, hexec, -⟩ := hpost.uncons
  obtain ⟨a, -, hupTo, hexceeds⟩ := exceeds_of_limited (wellFormed_of_reachable hreach) hqer hfull
    hpre (fun e' he' => hkept e' (by rw [hsplit]; simp [he'])) hexec hlimited hoffer
  have hoffers : es.filterMap (qerOffer qer.id) = pre.filterMap (qerOffer qer.id)
      ++ ([(t, x)] ++ post.filterMap (qerOffer qer.id)) := by
    rw [hsplit, List.filterMap_append, List.filterMap_cons_some hoffer, List.singleton_append]
  have hbound := hconforms a t
  have hcharged := spentIn_charges_le qer.id pre a t
  have hlast : Bucket.spentIn a t [(t, x)] = x := by simp [Bucket.spentIn, hupTo]
  rw [hoffers, Bucket.spentIn_append, Bucket.spentIn_append, hlast] at hbound
  have hmore := Nat.mul_le_mul_right 8000000 hcharged
  omega

end PacketPipeline

end UpfPolicy
