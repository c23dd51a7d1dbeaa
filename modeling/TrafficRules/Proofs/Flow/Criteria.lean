import TrafficRules.Flow.Match
/-!
# Criteria — what each field of a match asks of a flow

A match accepts the flows that meet each of its criteria on its own (`accepts_iff`).  The destination address is the one
criterion that can be met in two ways: by the address the flow goes to, or, for stream classification, by the address of
the interface it leaves by.  Take that criterion away and neither the interface nor the family has a part in the answer
(`destination_falls_back`).
-/
namespace TrafficRules

theorem Classifier.isScsLike_iff {c : Classifier} : c.isScsLike = true ↔ c = .scs ∨ c = .sawfScs := by cases c <;> decide

namespace FlowMatch

/-- The criteria, field by field; the names of interfaces are none. -/
structure Meets (m : FlowMatch) (i : FlowInput) (c : Classifier) : Prop where
  ipVersion : ∀ v ∈ m.ipVersion, i.ipVersion = some v
  srcMac : ∀ mac ∈ m.srcMac, i.srcMac = mac
  dstMac : ∀ mac ∈ m.dstMac, i.dstMac = mac ∨ m.acceptsDevice i c mac = true
  srcIpv4 : ∀ r ∈ m.srcIpv4, ∃ a ∈ i.srcIpv4, r.accepts a = true
  dstIpv4 : ∀ r ∈ m.dstIpv4, ∃ a ∈ i.dstIpv4, r.accepts a = true
  srcIpv6 : ∀ r ∈ m.srcIpv6, ∃ a ∈ i.srcIpv6, r.accepts a = true
  dstIpv6 : ∀ r ∈ m.dstIpv6, ∃ a ∈ i.dstIpv6, r.accepts a = true
  srcPort : ∀ p ∈ m.srcPort, i.srcPort = p
  dstPort : ∀ p ∈ m.dstPort, i.dstPort = p
  srcPortRange : ∀ r ∈ m.srcPortRange, r.contains i.srcPort = true
  dstPortRange : ∀ r ∈ m.dstPortRange, r.contains i.dstPort = true
  protocol : ∀ p ∈ m.protocol, i.protocol = p
  dscp : ∀ d ∈ m.dscp, i.dscp = d
  vlanPcp : ∀ p ∈ m.vlanPcp, i.vlanPcp = some p
  vlanId : ∀ v ∈ m.vlanId, i.vlanId = some v
  spi : ∀ s ∈ m.spi, s.accepts i.spi = true

variable {m : FlowMatch} {i : FlowInput} {c : Classifier}

/-- **A match is the conjunction of its criteria.** -/
theorem accepts_iff : m.accepts i c = true ↔ m.Meets i c := by
  simp only [accepts, Bool.and_eq_true, Bool.or_eq_true, Option.all_eq_true, Option.any_eq_true, beq_iff_eq]
  constructor
  · rintro ⟨⟨⟨⟨⟨⟨⟨⟨⟨⟨⟨⟨⟨⟨⟨ipVersion, dstMac⟩, dstPort⟩, dstPortRange⟩, dstIpv4⟩, srcMac⟩, srcIpv6⟩, dstIpv6⟩, srcPort⟩,
      srcPortRange⟩, srcIpv4⟩, protocol⟩, dscp⟩, vlanPcp⟩, vlanId⟩, spi⟩
    constructor <;> assumption
  · rintro ⟨ipVersion, srcMac, dstMac, srcIpv4, dstIpv4, srcIpv6, dstIpv6, srcPort, dstPort, srcPortRange, dstPortRange,
      protocol, dscp, vlanPcp, vlanId, spi⟩
    exact ⟨⟨⟨⟨⟨⟨⟨⟨⟨⟨⟨⟨⟨⟨⟨ipVersion, dstMac⟩, dstPort⟩, dstPortRange⟩, dstIpv4⟩, srcMac⟩, srcIpv6⟩, dstIpv6⟩, srcPort⟩,
      srcPortRange⟩, srcIpv4⟩, protocol⟩, dscp⟩, vlanPcp⟩, vlanId⟩, spi⟩

/-! ## The destination address -/

theorem acceptsDevice_iff {mac : Mac} : m.acceptsDevice i c mac = true ↔
    (c = .scs ∨ c = .sawfScs) ∧ m.dstIfindex.isSome ∧ m.dstIfindex = i.dstIfindex ∧ i.devAddr = mac := by
  unfold acceptsDevice
  rw [Bool.and_eq_true, Classifier.isScsLike_iff]
  refine and_congr_right' ?_
  cases m.dstIfindex with
  | none => simp
  | some n =>
    rw [Option.any_some, Bool.and_eq_true, beq_iff_eq, beq_iff_eq, and_comm, @eq_comm _ i.dstIfindex]
    exact (and_iff_right rfl).symm

theorem meets_iff_without_dstMac : m.Meets i c ↔ { m with dstMac := none }.Meets i c ∧
    ∀ mac ∈ m.dstMac, i.dstMac = mac ∨ m.acceptsDevice i c mac = true :=
  ⟨fun h => ⟨{ h with dstMac := by simp }, h.dstMac⟩, fun ⟨h, hdst⟩ => { h with dstMac := hdst }⟩

/-- **The interface stands in for the destination and for nothing else.**  A flow is accepted if it is accepted whatever
its destination and the destination is the one asked for, or, for stream classification, the address asked for is that of
the interface which is named and by which the flow leaves.  So elsewhere the interface makes no difference, either kind of
stream classification accepts the same flows and all that any other family would; and what a match says of interfaces by
name, or a flow of its priority and its device, makes none anywhere. -/
theorem destination_falls_back (m : FlowMatch) (i : FlowInput) (c : Classifier) :
    (m.accepts i c = true ↔ { m with dstMac := none }.accepts i c = true ∧
      (m.dstMac = none ∨ m.dstMac = some i.dstMac ∨
        (c = .scs ∨ c = .sawfScs) ∧ m.dstIfindex.isSome ∧ m.dstIfindex = i.dstIfindex ∧ m.dstMac = some i.devAddr)) ∧
    (c ≠ .scs → c ≠ .sawfScs → ∀ ifindex leavesBy devAddr,
      { m with dstIfindex := ifindex }.accepts { i with dstIfindex := leavesBy, devAddr } c = m.accepts i c) ∧
    m.accepts i .scs = m.accepts i .sawfScs ∧
    (m.accepts i c = true → m.accepts i .scs = true) ∧
    ∀ srcIface dstIface priority destDev,
      { m with srcIface, dstIface }.accepts { i with priority, destDev } c = m.accepts i c := by
  refine ⟨?_, fun hscs hsawfScs ifindex leavesBy devAddr => ?_, rfl, fun h => ?_, fun _ _ _ _ => rfl⟩
  · rw [accepts_iff, accepts_iff, meets_iff_without_dstMac]
    refine and_congr_right' ?_
    cases hdst : m.dstMac with
    | none => simp
    | some mac => simp [acceptsDevice_iff, @eq_comm _ mac]
  · have hc : c.isScsLike = false := by
      rw [Bool.eq_false_iff, Ne, Classifier.isScsLike_iff]
      exact not_or.2 ⟨hscs, hsawfScs⟩
    unfold accepts acceptsDevice
    rw [hc]
    rfl
  · have hm := accepts_iff.1 h
    refine accepts_iff.2 { hm with dstMac := fun mac hmac => (hm.dstMac mac hmac).imp_right fun hdevice => ?_ }
    obtain ⟨-, hleaves⟩ := acceptsDevice_iff.1 hdevice
    exact acceptsDevice_iff.2 ⟨Or.inl rfl, hleaves⟩

/-- Frames for the interface itself, asked for by its address. -/
def gateway : FlowMatch := { dstMac := some ⟨2, 0, 0, 0, 0, 1⟩, dstIfindex := some 7, dstPort := some 443 }

/-- It goes to another address, by that interface. -/
def passing : FlowInput := { dstMac := ⟨2, 0, 0, 0, 0, 9⟩, dstPort := 443, dstIfindex := some 7, devAddr := ⟨2, 0, 0, 0, 0, 1⟩ }

theorem destination_falls_back_passing :
    gateway.accepts passing .scs = true ∧ gateway.accepts passing .sawfScs = true ∧
    (Classifier.mscs ≠ .scs ∧ Classifier.mscs ≠ .sawfScs) ∧ gateway.accepts passing .mscs = false ∧
    { gateway with dstIfindex := none }.accepts { passing with dstIfindex := some 8, devAddr := .zero } .mscs = false ∧
    gateway.accepts { passing with dstMac := ⟨2, 0, 0, 0, 0, 1⟩ } .sawf = true ∧
    gateway.accepts { passing with dstMac := ⟨2, 0, 0, 0, 0, 1⟩ } .scs = true := by
  obtain ⟨hscs, -, hsame, -⟩ := destination_falls_back gateway passing .scs
  obtain ⟨-, hapart, -⟩ := destination_falls_back gateway passing .mscs
  obtain ⟨-, -, -, hwider, -⟩ := destination_falls_back gateway { passing with dstMac := ⟨2, 0, 0, 0, 0, 1⟩ } .sawf
  have hpasses : gateway.accepts passing .scs = true :=
    hscs.2 ⟨by decide, Or.inr (Or.inr ⟨Or.inl rfl, rfl, rfl, rfl⟩)⟩
  have hmscs : gateway.accepts passing .mscs = false := by decide
  have hdirect : gateway.accepts { passing with dstMac := ⟨2, 0, 0, 0, 0, 1⟩ } .sawf = true := by decide
  have hother : Classifier.mscs ≠ .scs ∧ Classifier.mscs ≠ .sawfScs := by decide
  exact ⟨hpasses, hsame.symm.trans hpasses, hother, hmscs,
    (hapart hother.1 hother.2 none (some 8) .zero).trans hmscs, hdirect, hwider hdirect⟩

end FlowMatch
end TrafficRules
