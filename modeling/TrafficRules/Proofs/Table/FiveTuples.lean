import TrafficRules.Proofs.Flow.Packed
import TrafficRules.Proofs.Table.Run
/-!
# FiveTuples — rules that name a flow

A flow-keyed rule without an id is known by its tuple.  Where it names the addresses, the ports and the protocol of a flow,
an addition takes its place for the same flow only, or for the one that differs in the version of an address and is packed
into the same words (`tuples_name_flows`, `versions_share_tuples`).
-/
namespace TrafficRules

/-- A flow-keyed rule without an id that names the flow. -/
structure Rule.NamesFlow (r : Rule) (f : FiveTuple) : Prop where
  classifier : r.classifier = .ifli
  unnamed : r.id = noRuleId
  flow : r.flow.Names f

theorem Node.sameIdentity_iff_alike {n new : Node} {f g : FiveTuple} (hn : n.rule.NamesFlow f)
    (hnew : new.rule.NamesFlow g) : n.sameIdentity new = true ↔ f.Alike g := by
  have hk : new.rule.classifier.isFlowKeyed = true := Classifier.isFlowKeyed_iff.2 hnew.classifier
  rw [sameIdentity_iff, if_pos ⟨hk, hnew.unnamed⟩, hn.classifier, hnew.classifier, FlowMatch.tuple_eq_packed hn.flow,
    FlowMatch.tuple_eq_packed hnew.flow, FiveTuple.packed_eq_iff]
  exact and_iff_right rfl

namespace Table

/-- **A tuple names a flow up to the version of an address**: those with equal tuples have equal ports and protocols, and
addresses that are equal or differ in the version alone. -/
theorem tuples_name_flows :
    (∀ f g : FiveTuple, f.packed = g.packed ↔ f.Alike g) ∧
    (∀ f g : FiveTuple, f.Alike g → f.src.version = g.src.version → f.dst.version = g.dst.version → f = g) ∧
    ∀ t : Table, Reachable t → ∀ n ∈ t.store.nodes, ∀ (r : Rule) (f g : FiveTuple), n.rule.NamesFlow f → r.NamesFlow g →
      (n.sameIdentity (t.incoming r) = true ↔ f.Alike g) ∧ (n ∉ (t.add r).table.store.nodes → f.Alike g) := by
  refine ⟨fun f g => FiveTuple.packed_eq_iff, fun f g => FiveTuple.Alike.eq_of_version, fun t h n hn r f g hf hg => ?_⟩
  have hsame : n.sameIdentity (t.incoming r) = true ↔ f.Alike g :=
    Node.sameIdentity_iff_alike hf ⟨hg.classifier, hg.unnamed, hg.flow⟩
  refine ⟨hsame, fun hgone => hsame.1 ?_⟩
  rcases t.add_cases r with ⟨e, -, ht⟩ | ⟨-, hput, -⟩
  · rw [ht] at hgone
    exact absurd hn hgone
  · rw [hput] at hgone
    exact (h.valid.store.of_findSame (h.valid.store.findSame_of_gone hn hgone)).2.2

def overIpv4 : FiveTuple := ⟨.v4 (.ofOctets 1 2 3 4), .v4 (.ofOctets 5 6 7 8), 1000, 443, 6⟩

/-- From `102:304::` to `506:708::`. -/
def overIpv6 : FiveTuple := ⟨.v6 ⟨⟨0x01020304, 0, 0, 0⟩⟩, .v6 ⟨⟨0x05060708, 0, 0, 0⟩⟩, 1000, 443, 6⟩

def ipv4Rule : Rule :=
  { classifier := .ifli
    flow := { srcIpv4 := some { addr := .ofOctets 1 2 3 4 }, dstIpv4 := some { addr := .ofOctets 5 6 7 8 }
              srcPort := some 1000, dstPort := some 443, protocol := some 6 } }

def ipv6Rule : Rule :=
  { classifier := .ifli
    flow := { srcIpv6 := some { addr := ⟨⟨0x01020304, 0, 0, 0⟩⟩ }, dstIpv6 := some { addr := ⟨⟨0x05060708, 0, 0, 0⟩⟩ }
              srcPort := some 1000, dstPort := some 443, protocol := some 6 } }

theorem ipv4Rule_namesFlow : ipv4Rule.NamesFlow overIpv4 := ⟨rfl, rfl, rfl, rfl, rfl, rfl⟩

theorem ipv6Rule_namesFlow : ipv6Rule.NamesFlow overIpv6 := ⟨rfl, rfl, rfl, rfl, rfl, rfl⟩

theorem tuples_name_flows_replaced :
    let t := (run [.add ipv4Rule] {}).1
    Reachable t ∧ ⟨0, ipv4Rule⟩ ∈ t.store.nodes ∧ ipv4Rule.NamesFlow overIpv4 ∧ ipv6Rule.NamesFlow overIpv6 ∧
    ⟨0, ipv4Rule⟩ ∉ (t.add ipv6Rule).table.store.nodes ∧ overIpv4.Alike overIpv6 ∧ overIpv4.packed = overIpv6.packed := by
  intro t
  have h : Reachable t := run_reachable _ (.fresh {} {})
  have hn : ⟨0, ipv4Rule⟩ ∈ t.store.nodes := by decide +kernel
  have hgone : ⟨0, ipv4Rule⟩ ∉ (t.add ipv6Rule).table.store.nodes := by decide +kernel
  obtain ⟨hpacked, -, hrules⟩ := tuples_name_flows
  have halike := (hrules t h _ hn ipv6Rule overIpv4 overIpv6 ipv4Rule_namesFlow ipv6Rule_namesFlow).2 hgone
  exact ⟨h, hn, ipv4Rule_namesFlow, ipv6Rule_namesFlow, hgone, halike, (hpacked _ _).2 halike⟩

/-- **Flows of either version share a tuple**, and of two rules that name one of them each the later one is left. -/
theorem versions_share_tuples :
    overIpv4.packed = overIpv6.packed ∧ overIpv4 ≠ overIpv6 ∧ ¬ Function.Injective FiveTuple.packed ∧
    ipv4Rule.NamesFlow overIpv4 ∧ ipv6Rule.NamesFlow overIpv6 ∧
    (run [.add ipv4Rule, .add ipv6Rule] {}).1.rules = [ipv6Rule] := by
  have hpacked : overIpv4.packed = overIpv6.packed := by decide
  have hne : overIpv4 ≠ overIpv6 := by decide
  exact ⟨hpacked, hne, fun hinj => hne (hinj hpacked), ipv4Rule_namesFlow, ipv6Rule_namesFlow, by decide +kernel⟩

end Table
end TrafficRules
