import TrafficRules.Flow.Match
/-!
# Packed — addresses as words

The words of a tuple do not say of which version an address is.  An IPv4 address has the words of the IPv6 address that
begins with its bits and goes on in zeros, and no other two addresses share their words (`Ip.words_eq_iff`).  So a tuple
says which flow it is of but for that (`FiveTuple.packed_eq_iff`), and all of it once the versions are known.
-/
namespace TrafficRules

/-- One and the same, or an IPv4 address and the IPv6 address of its bits with 96 zeros behind them. -/
def Ip.Alike : Ip → Ip → Prop
  | .v4 a, .v4 b => a = b
  | .v6 a, .v6 b => a = b
  | .v4 a, .v6 b => b.words = ⟨a.bits, 0, 0, 0⟩
  | .v6 a, .v4 b => a.words = ⟨b.bits, 0, 0, 0⟩

namespace Ip

theorem words_eq_iff {a b : Ip} : a.words = b.words ↔ a.Alike b := by
  cases a with
  | v4 a =>
    cases b with
    | v4 b =>
      cases a
      cases b
      simp [words, Alike]
    | v6 b =>
      rw [words_v6]
      exact eq_comm
  | v6 a =>
    rw [words_v6]
    cases b with
    | v4 b => exact Iff.rfl
    | v6 b =>
      cases a
      cases b
      simp [Alike]

theorem Alike.eq_of_version {a b : Ip} (h : a.Alike b) (hv : a.version = b.version) : a = b := by
  cases a <;> cases b
  · exact congrArg Ip.v4 h
  · cases hv
  · cases hv
  · exact congrArg Ip.v6 h

end Ip

/-- What a flow goes by, before it is packed into words. -/
structure FiveTuple where
  src : Ip
  dst : Ip
  srcPort : UInt16
  dstPort : UInt16
  protocol : UInt8
  deriving DecidableEq, Repr

namespace FiveTuple

def packed (f : FiveTuple) : FlowTuple := .ofAddresses f.src f.dst f.srcPort f.dstPort f.protocol

/-- The same flow, as far as a tuple tells. -/
def Alike (f g : FiveTuple) : Prop :=
  f.src.Alike g.src ∧ f.dst.Alike g.dst ∧ f.srcPort = g.srcPort ∧ f.dstPort = g.dstPort ∧ f.protocol = g.protocol

theorem packed_eq_iff {f g : FiveTuple} : f.packed = g.packed ↔ f.Alike g := by
  simp only [packed, FlowTuple.ofAddresses, FlowTuple.mk.injEq, Ip.words_eq_iff, Alike]

theorem Alike.eq_of_version {f g : FiveTuple} (h : f.Alike g) (hs : f.src.version = g.src.version)
    (hd : f.dst.version = g.dst.version) : f = g := by
  obtain ⟨hsrc, hdst, hsp, hdp, hproto⟩ := h
  obtain ⟨src, dst, srcPort, dstPort, protocol⟩ := f
  obtain rfl := hsrc.eq_of_version hs
  obtain rfl := hdst.eq_of_version hd
  obtain rfl := hsp
  obtain rfl := hdp
  obtain rfl := hproto
  rfl

end FiveTuple

namespace FlowMatch

/-- The addresses that a match names, masked or not: both IPv4 addresses if it has both, else both IPv6 addresses. -/
def addresses? (m : FlowMatch) : Option (Ip × Ip) :=
  match m.srcIpv4, m.dstIpv4 with
  | some s, some d => some (.v4 s.addr, .v4 d.addr)
  | _, _ =>
    match m.srcIpv6, m.dstIpv6 with
    | some s, some d => some (.v6 s.addr, .v6 d.addr)
    | _, _ => none

/-- The match names the addresses, the ports and the protocol of the flow. -/
def Names (m : FlowMatch) (f : FiveTuple) : Prop :=
  m.addresses? = some (f.src, f.dst) ∧ m.srcPort = some f.srcPort ∧ m.dstPort = some f.dstPort ∧
    m.protocol = some f.protocol

theorem tuple_eq (m : FlowMatch) : m.tuple =
    ⟨(m.addresses?.map (·.1.words)).getD .zero, (m.addresses?.map (·.2.words)).getD .zero, m.srcPort.getD 0,
      m.dstPort.getD 0, m.protocol.getD 0⟩ := by
  unfold tuple addresses?
  cases m.srcIpv4 <;> cases m.dstIpv4 <;> cases m.srcIpv6 <;> cases m.dstIpv6 <;> rfl

theorem tuple_eq_packed {m : FlowMatch} {f : FiveTuple} (h : m.Names f) : m.tuple = f.packed := by
  obtain ⟨haddresses, hsp, hdp, hproto⟩ := h
  rw [tuple_eq, haddresses, hsp, hdp, hproto]
  rfl

end FlowMatch
end TrafficRules
