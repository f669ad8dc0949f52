/-
UpfPolicy.Adapters.Sinks — the sink ports and their implementations
(`upf/ports/event_sink.hpp`, `upf/ports/packet_sink.hpp`,
`src/adapters/bounded_event_sink.cpp`,
`src/adapters/in_memory_packet_sink.cpp`).

`PacketPipeline` does not use the ports; it keeps its events and its
packets in vectors of its own. `ports_refined` says that nothing is lost by
that: over every run its event store is a `BoundedEventSink`, and each of
its two packet stores an `InMemoryPacketSink` that never refuses.
-/
import UpfPolicy.Application.DeliveryTheorems
import UpfPolicy.Application.ObservationTheorems

namespace UpfPolicy

open Support

/-! ## Events -/

structure BoundedEventSink where
  capacity : UInt64
  dropped : UInt64 := 0
  events : List String := []

namespace BoundedEventSink

def new (capacity : UInt64) : BoundedEventSink := { capacity }

def emit (s : BoundedEventSink) (event : String) : Bool × BoundedEventSink :=
  if s.events.length ≥ s.capacity.toNat then
    (false, { s with dropped := if s.dropped ≠ uint64Max then s.dropped + 1 else s.dropped })
  else (true, { s with events := s.events ++ [event] })

/-- Every call of `emit` returns. -/
def exec (s : BoundedEventSink) (event : String) : Option (Bool × BoundedEventSink) :=
  some (s.emit event)

end BoundedEventSink

/-! ## Packets -/

structure InMemoryPacketSink where
  capacity : UInt64
  packets : List Packet := []

namespace InMemoryPacketSink

def new (capacity : UInt64) : InMemoryPacketSink := { capacity }

def accept (s : InMemoryPacketSink) (packet : Packet) : Bool × InMemoryPacketSink :=
  if s.packets.length ≥ s.capacity.toNat then (false, s)
  else (true, { s with packets := s.packets ++ [packet] })

def size (s : InMemoryPacketSink) : Nat := s.packets.length

/-- Every call of `accept` returns. -/
def exec (s : InMemoryPacketSink) (packet : Packet) : Option (Bool × InMemoryPacketSink) :=
  some (s.accept packet)

end InMemoryPacketSink

/-! ## The stores of a pipeline -/

namespace PacketPipeline

/-- The event store, seen through the port. -/
def eventSink (p : PacketPipeline) : BoundedEventSink :=
  ⟨p.limits.events, p.droppedEvents, p.events⟩

/-- The packet store of a side, seen through the port. -/
def packetSink (p : PacketPipeline) (side : Interface) : InMemoryPacketSink :=
  ⟨p.limits.sinkPackets, p.sinkOf side⟩

/-- The decision that a call retained. -/
def retainedBy (e : PipelineEvent) : Option PacketDecision :=
  e.after.decisions[e.before.decisions.length]?

/-- The event that a call hands to the event sink, -/
def emittedBy (e : PipelineEvent) : Option String :=
  (retainedBy e).map fun d => terminalResultName d.terminalResult

/-- and whether the decision says that the sink took it. -/
def observedBy (e : PipelineEvent) : Option Bool :=
  (retainedBy e).map fun d => !d.observabilityDegraded

/-- A packet that a call hands to a packet sink is taken. -/
def takenBy (side : Interface) (e : PipelineEvent) : Option Bool :=
  (deliveredAs (forwardedTo side) e).map fun _ => true

/-- Retaining a decision emits its event. -/
theorem retain_emits (p : PacketPipeline) {d : PacketDecision}
    (hclean : d.observabilityDegraded = false) :
    p.eventSink.emit (terminalResultName d.terminalResult)
      = (!(p.retain d).1.observabilityDegraded, (p.retain d).2.eventSink) := by
  unfold retain BoundedEventSink.emit eventSink
  by_cases hroom : p.events.length < p.limits.events.toNat
  · rw [if_neg (Nat.not_le.mpr hroom), if_pos hroom]
    dsimp only
    rw [hclean]
    rfl
  · rw [if_pos (Nat.not_lt.mp hroom), if_neg hroom]
    rfl

section Step

variable [InetText] {limits : CapacityLimits} {p p' : PacketPipeline} {call : PipelineCall}
  {reply : PipelineReply}

/-- **The event sink, call by call**: nothing is emitted, or the event of the
retained decision. -/
theorem WellFormed.emits (h : p.WellFormed) (hexec : p.exec call = some (reply, p')) :
    (emittedBy ⟨p, call, reply, p'⟩ = none ∧ observedBy ⟨p, call, reply, p'⟩ = none ∧
        p'.eventSink = p.eventSink) ∨
      ∃ event observed, emittedBy ⟨p, call, reply, p'⟩ = some event ∧
        observedBy ⟨p, call, reply, p'⟩ = some observed ∧
        p.eventSink.exec event = some (observed, p'.eventSink) := by
  have hquiet (hdecisions : p'.decisions = p.decisions) (hsink : p'.eventSink = p.eventSink) :
      emittedBy ⟨p, call, reply, p'⟩ = none ∧ observedBy ⟨p, call, reply, p'⟩ = none ∧
        p'.eventSink = p.eventSink := by
    have hnone : retainedBy ⟨p, call, reply, p'⟩ = none := by
      rw [retainedBy, hdecisions]
      exact List.getElem?_eq_none (Nat.le_refl _)
    rw [emittedBy, observedBy, hnone]
    exact ⟨rfl, rfl, hsink⟩
  cases h.answered hexec with
  | installed _ _ houtcome =>
    cases houtcome with
    | rejected _ _ hkept => exact .inl (hquiet (hkept ▸ rfl) (hkept ▸ rfl))
    | accepted _ _ hinstalled => exact .inl (hquiet (by rw [hinstalled]) (by rw [hinstalled]; rfl))
  | full _ _ _ hafter => exact .inl (hquiet (hafter ▸ rfl) (hafter ▸ rfl))
  | @settled packet runId scenarioId _ _ _ hafter =>
    right
    have hclean : (p.verdict packet runId scenarioId).decision.observabilityDegraded = false := by
      cases h.judged packet runId scenarioId with
      | untried _ _ hreported => exact hreported.observed
      | tried _ _ hruling => exact hruling.observed
    generalize p.verdict packet runId scenarioId = r at hafter hclean
    have hretained : retainedBy ⟨p, call, reply, p'⟩ = some (p.settle r).1 := by
      rw [retainedBy, hafter, settle, retain_decisions, applyEffect_decisions]
      exact List.getElem?_concat_length
    refine ⟨terminalResultName r.decision.terminalResult, !(p.settle r).1.observabilityDegraded,
      ?_, ?_, ?_⟩
    · rw [emittedBy, hretained, Option.map_some, settle, retain_terminalResult]
    · rw [observedBy, hretained, Option.map_some]
    · have hemits := retain_emits (p.applyEffect r.effect) hclean
      rw [hafter]
      exact congrArg some hemits

/-- **A packet sink, call by call**: a packet that is delivered is taken. -/
theorem WithinLimits.takes (h : WithinLimits limits p) (hexec : p.exec call = some (reply, p'))
    (side : Interface) :
    (deliveredAs (forwardedTo side) ⟨p, call, reply, p'⟩ = none ∧
        takenBy side ⟨p, call, reply, p'⟩ = none ∧ p'.packetSink side = p.packetSink side) ∨
      ∃ packet taken, deliveredAs (forwardedTo side) ⟨p, call, reply, p'⟩ = some packet ∧
        takenBy side ⟨p, call, reply, p'⟩ = some taken ∧
        (p.packetSink side).exec packet = some (taken, p'.packetSink side) := by
  have hafter := h.step hexec
  have hlimits : p'.limits = p.limits := hafter.limits_eq.trans h.limits_eq.symm
  have hdelivers := h.wellFormed.delivers hexec
  have hsink : p'.sinkOf side
      = p.sinkOf side ++ (deliveredAs (forwardedTo side) ⟨p, call, reply, p'⟩).toList := by
    cases side with
    | n3 => exact hdelivers.n3
    | n6 => exact hdelivers.n6
  have hbound : (p'.sinkOf side).length ≤ limits.sinkPackets.toNat := by
    cases side with
    | n3 => exact hafter.bounded.n3Sink
    | n6 => exact hafter.bounded.n6Sink
  unfold takenBy
  cases hdelivered : deliveredAs (forwardedTo side) ⟨p, call, reply, p'⟩ with
  | none =>
    refine .inl ⟨rfl, rfl, ?_⟩
    rw [packetSink, packetSink, hlimits, hsink, hdelivered]
    simp
  | some packet =>
    refine .inr ⟨packet, true, rfl, rfl, ?_⟩
    rw [hsink, hdelivered, Option.toList_some, List.length_append, List.length_singleton] at hbound
    have hroom : ¬ (p.packetSink side).packets.length ≥ (p.packetSink side).capacity.toNat := by
      rw [packetSink, h.limits_eq]
      exact Nat.not_le.mpr hbound
    rw [InMemoryPacketSink.exec, InMemoryPacketSink.accept, if_neg hroom, packetSink, packetSink,
      hlimits, hsink, hdelivered]
    rfl

end Step

/-! ## Runs -/

/-- The three stores after a run are the ports, driven by what the calls
emitted and delivered. -/
structure PortsRefined (limits : CapacityLimits) (es : List PipelineEvent) (p : PacketPipeline) :
    Prop where
  events : Driven BoundedEventSink.exec (.new limits.events) (es.filterMap emittedBy)
    (es.filterMap observedBy) p.eventSink
  packets : ∀ side, Driven InMemoryPacketSink.exec (.new limits.sinkPackets)
    (es.filterMap (deliveredAs (forwardedTo side))) (es.filterMap (takenBy side)) (p.packetSink side)

section Runs

variable [InetText] {limits : CapacityLimits}

theorem portsRefined_of_recorded {es : List PipelineEvent} {p : PacketPipeline}
    (h : Recorded PacketPipeline.exec (new limits) es p) :
    WithinLimits limits p ∧ PortsRefined limits es p := by
  induction h with
  | nil =>
    refine ⟨⟨wellFormed_new limits, rfl, bounded_new limits⟩, .nil, fun side => ?_⟩
    cases side <;> exact .nil
  | snoc _ hexec ih =>
    obtain ⟨hwithin, hports⟩ := ih
    refine ⟨hwithin.step hexec, ?_, fun side => ?_⟩
    · exact hports.events.event (hwithin.wellFormed.emits hexec)
    · exact (hports.packets side).event (hwithin.takes hexec side)

/-- **The stores of a pipeline refine the sink ports**: over every sequence
of calls the events, the dropped events and the degraded marks are those of
a `BoundedEventSink` that is handed the result of every retained decision,
and the two packet stores are `InMemoryPacketSink`s that take every packet
delivered. -/
theorem ports_refined (limits : CapacityLimits) (calls : List PipelineCall) :
    ∃ es p, run PacketPipeline.exec (new limits) calls = some (es, p) ∧
      PortsRefined limits es p := by
  obtain ⟨es, p, hrun⟩ := (wellFormed_new limits).run_total calls
  exact ⟨es, p, hrun, (portsRefined_of_recorded (recorded_of_run hrun)).2⟩

end Runs

end PacketPipeline

end UpfPolicy
