import TrafficRules.Proofs.Flow.Criteria
/-!
# Exact — matches that name their tuple

An exact flow match names both ports, the protocol and both addresses of one version, unmasked.  The flows it accepts
have its own tuple (`tuple_eq_of_accepts`): a match that also asks for addresses of the other version accepts nothing,
so it does not matter that its tuple would prefer them.
-/
namespace TrafficRules

/-- No mask, or one of all ones. -/
def Ipv4Match.isExact (m : Ipv4Match) : Bool := m.mask.all (·.bits == 0xffffffff)

/-- No mask, or one of all ones. -/
def Ipv6Match.isExact (m : Ipv6Match) : Bool :=
  m.mask.all (·.words == ⟨0xffffffff, 0xffffffff, 0xffffffff, 0xffffffff⟩)

/-- Both ports, the protocol and both addresses of one version are named, the addresses unmasked. -/
def FlowMatch.isExact (m : FlowMatch) : Bool :=
  m.srcPort.isSome && m.dstPort.isSome && m.protocol.isSome
    && (m.srcIpv4.any (·.isExact) && m.dstIpv4.any (·.isExact)
      || m.srcIpv6.any (·.isExact) && m.dstIpv6.any (·.isExact))

theorem and_ones (w : UInt32) : w &&& 0xffffffff = w := UInt32.and_neg_one

theorem Words.and_ones (w : Words) : w.and ⟨0xffffffff, 0xffffffff, 0xffffffff, 0xffffffff⟩ = w := by
  simp only [Words.and, TrafficRules.and_ones]

theorem Ipv4Match.eq_of_accepts {m : Ipv4Match} (hx : m.isExact = true) {ip : Ipv4} (h : m.accepts ip = true) :
    ip = m.addr := by
  have hmask : m.maskBits = 0xffffffff := by
    unfold maskBits
    cases hm : m.mask with
    | none => rfl
    | some a =>
      rw [isExact, hm] at hx
      exact beq_iff_eq.1 hx
  rw [accepts, hmask, and_ones, and_ones, beq_iff_eq] at h
  exact congrArg Ipv4.mk h

theorem Ipv6Match.eq_of_accepts {m : Ipv6Match} (hx : m.isExact = true) {ip : Ipv6} (h : m.accepts ip = true) :
    ip = m.addr := by
  have hmask : m.maskWords = ⟨0xffffffff, 0xffffffff, 0xffffffff, 0xffffffff⟩ := by
    unfold maskWords
    cases hm : m.mask with
    | none => rfl
    | some a =>
      rw [isExact, hm] at hx
      exact beq_iff_eq.1 hx
  rw [accepts, hmask, Words.and_ones, Words.and_ones, beq_iff_eq] at h
  exact congrArg Ipv6.mk h

namespace FlowInput

theorem srcIpv4_eq_some {i : FlowInput} {a : Ipv4} : i.srcIpv4 = some a ↔ i.srcIp = some (.v4 a) := by
  unfold srcIpv4
  rcases i.srcIp with _ | ⟨b | b⟩ <;> simp [Ip.v4?]

theorem dstIpv4_eq_some {i : FlowInput} {a : Ipv4} : i.dstIpv4 = some a ↔ i.dstIp = some (.v4 a) := by
  unfold dstIpv4
  rcases i.dstIp with _ | ⟨b | b⟩ <;> simp [Ip.v4?]

theorem srcIpv6_eq_some {i : FlowInput} {a : Ipv6} : i.srcIpv6 = some a ↔ i.srcIp = some (.v6 a) := by
  unfold srcIpv6
  rcases i.srcIp with _ | ⟨b | b⟩ <;> simp [Ip.v6?]

theorem dstIpv6_eq_some {i : FlowInput} {a : Ipv6} : i.dstIpv6 = some a ↔ i.dstIp = some (.v6 a) := by
  unfold dstIpv6
  rcases i.dstIp with _ | ⟨b | b⟩ <;> simp [Ip.v6?]

end FlowInput

namespace FlowMatch

/-- What an accepted flow has in common with the match, as far as its tuple goes. -/
structure NamesTuple (m : FlowMatch) (i : FlowInput) : Prop where
  srcPort : ∀ p, m.srcPort = some p → i.srcPort = p
  dstPort : ∀ p, m.dstPort = some p → i.dstPort = p
  protocol : ∀ p, m.protocol = some p → i.protocol = p
  srcIpv4 : ∀ r, m.srcIpv4 = some r → ∃ a, i.srcIp = some (.v4 a) ∧ r.accepts a = true
  dstIpv4 : ∀ r, m.dstIpv4 = some r → ∃ a, i.dstIp = some (.v4 a) ∧ r.accepts a = true
  srcIpv6 : ∀ r, m.srcIpv6 = some r → ∃ a, i.srcIp = some (.v6 a) ∧ r.accepts a = true
  dstIpv6 : ∀ r, m.dstIpv6 = some r → ∃ a, i.dstIp = some (.v6 a) ∧ r.accepts a = true

theorem namesTuple_of_accepts {m : FlowMatch} {i : FlowInput} {c : Classifier} (h : m.accepts i c = true) :
    m.NamesTuple i := by
  have hm := accepts_iff.1 h
  exact
    { srcPort := hm.srcPort
      dstPort := hm.dstPort
      protocol := hm.protocol
      srcIpv4 := fun r hr => (hm.srcIpv4 r hr).imp fun a => And.imp_left FlowInput.srcIpv4_eq_some.1
      dstIpv4 := fun r hr => (hm.dstIpv4 r hr).imp fun a => And.imp_left FlowInput.dstIpv4_eq_some.1
      srcIpv6 := fun r hr => (hm.srcIpv6 r hr).imp fun a => And.imp_left FlowInput.srcIpv6_eq_some.1
      dstIpv6 := fun r hr => (hm.dstIpv6 r hr).imp fun a => And.imp_left FlowInput.dstIpv6_eq_some.1 }

/-- **A flow an exact match accepts has the tuple of the match.** -/
theorem tuple_eq_of_accepts {m : FlowMatch} {i : FlowInput} {c : Classifier} (hx : m.isExact = true)
    (h : m.accepts i c = true) : m.tuple = i.tuple := by
  have hn := namesTuple_of_accepts h
  simp only [isExact, Bool.and_eq_true, Bool.or_eq_true, Option.isSome_iff_exists, Option.any_eq_true] at hx
  obtain ⟨⟨⟨⟨sp, hsp⟩, dp, hdp⟩, pr, hpr⟩, haddr⟩ := hx
  have hports : i.srcPort = sp ∧ i.dstPort = dp ∧ i.protocol = pr :=
    ⟨hn.srcPort sp hsp, hn.dstPort dp hdp, hn.protocol pr hpr⟩
  rcases haddr with ⟨⟨s, hs, hsx⟩, d, hd, hdx⟩ | ⟨⟨s, hs, hsx⟩, d, hd, hdx⟩
  · obtain ⟨a, hsrc, ha⟩ := hn.srcIpv4 s hs
    obtain ⟨b, hdst, hb⟩ := hn.dstIpv4 d hd
    obtain rfl := Ipv4Match.eq_of_accepts hsx ha
    obtain rfl := Ipv4Match.eq_of_accepts hdx hb
    simp [tuple, FlowInput.tuple, hs, hd, hsp, hdp, hpr, hsrc, hdst, hports]
  · obtain ⟨a, hsrc, ha⟩ := hn.srcIpv6 s hs
    obtain ⟨b, hdst, hb⟩ := hn.dstIpv6 d hd
    obtain rfl := Ipv6Match.eq_of_accepts hsx ha
    obtain rfl := Ipv6Match.eq_of_accepts hdx hb
    -- no IPv4 address is named besides, which the tuple would take first
    have hnone : m.srcIpv4 = none := Option.eq_none_iff_forall_ne_some.2 (fun r hr => by
      obtain ⟨x, hx, -⟩ := hn.srcIpv4 r hr
      rw [hsrc] at hx
      cases hx)
    simp [tuple, FlowInput.tuple, hnone, hs, hd, hsp, hdp, hpr, hsrc, hdst, hports, Ip.words]

end FlowMatch
end TrafficRules
