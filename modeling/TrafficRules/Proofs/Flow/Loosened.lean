import TrafficRules.Proofs.Flow.Criteria
/-!
# Loosened — matches that ask for less

A match is loosened by dropping criteria, by masks of fewer bits, by wider ranges, and, since an interface is one more way
to meet the criterion of the destination address, by naming one (`FlowMatch.Loosened`).  It then accepts whatever it
accepted (`loosened_keeps_flows`), however often it is loosened (`FlowMatch.Loosened.trans`).  Of an address only the bits
under the mask are asked for, so a match may be cut down to them (`FlowMatch.accepts_masked`).
-/
namespace TrafficRules

/-! ## Masks -/

section Masks

variable {α : Type} (cut : α → α → α) [Std.Associative cut]

theorem part_trans {m m' m'' : α} (h : cut m' m = m') (h' : cut m'' m' = m'') : cut m'' m = m'' := by
  have hassoc : ∀ a b c, cut (cut a b) c = cut a (cut b c) := Std.Associative.assoc
  rw [← h', hassoc, h]

theorem agree_of_part [Std.Commutative cut] {x y m m' : α} (h : cut m' m = m') (hxy : cut x m = cut y m) :
    cut x m' = cut y m' := by
  have hassoc : ∀ a b c, cut (cut a b) c = cut a (cut b c) := Std.Associative.assoc
  have hcomm : ∀ a b, cut a b = cut b a := Std.Commutative.comm
  have hthrough : ∀ z, cut z m' = cut (cut z m) m' := fun z => by rw [hassoc, hcomm m, h]
  rw [hthrough x, hxy, ← hthrough y]

end Masks

theorem Words.and_assoc (a b c : Words) : (a.and b).and c = a.and (b.and c) := by simp only [Words.and, UInt32.and_assoc]

theorem Words.and_self (a : Words) : a.and a = a := by simp only [Words.and, UInt32.and_self]

instance : Std.Associative Words.and := ⟨Words.and_assoc⟩

instance : Std.Commutative Words.and := ⟨fun a b => by simp only [Words.and, UInt32.and_comm]⟩

/-! ## One criterion -/

namespace Ipv4Match

/-- The same address under a mask of fewer bits; without a mask all bits count. -/
structure Loosened (r r' : Ipv4Match) : Prop where
  addr : r'.addr = r.addr
  mask : r'.maskBits &&& r.maskBits = r'.maskBits

variable {r r' r'' : Ipv4Match}

theorem Loosened.refl (r : Ipv4Match) : r.Loosened r := ⟨rfl, UInt32.and_self⟩

theorem Loosened.trans (h : r.Loosened r') (h' : r'.Loosened r'') : r.Loosened r'' :=
  ⟨h'.addr.trans h.addr, part_trans (· &&& ·) h.mask h'.mask⟩

theorem Loosened.accepts (h : r.Loosened r') {ip : Ipv4} (ha : r.accepts ip = true) : r'.accepts ip = true := by
  unfold Ipv4Match.accepts at ha ⊢
  rw [beq_iff_eq] at ha ⊢
  rw [h.addr]
  exact agree_of_part (· &&& ·) h.mask ha

/-- The mask written out, and the address cut to it. -/
def masked (r : Ipv4Match) : Ipv4Match := ⟨⟨r.addr.bits &&& r.maskBits⟩, some ⟨r.maskBits⟩⟩

theorem accepts_masked (r : Ipv4Match) : r.masked.accepts = r.accepts := by
  funext ip
  show (_ == (r.addr.bits &&& r.maskBits) &&& r.maskBits) = _
  rw [UInt32.and_assoc, UInt32.and_self]
  rfl

end Ipv4Match

namespace Ipv6Match

/-- The same address under a mask of fewer bits; without a mask all bits count. -/
structure Loosened (r r' : Ipv6Match) : Prop where
  addr : r'.addr = r.addr
  mask : r'.maskWords.and r.maskWords = r'.maskWords

variable {r r' r'' : Ipv6Match}

theorem Loosened.refl (r : Ipv6Match) : r.Loosened r := ⟨rfl, Words.and_self _⟩

theorem Loosened.trans (h : r.Loosened r') (h' : r'.Loosened r'') : r.Loosened r'' :=
  ⟨h'.addr.trans h.addr, part_trans Words.and h.mask h'.mask⟩

theorem Loosened.accepts (h : r.Loosened r') {ip : Ipv6} (ha : r.accepts ip = true) : r'.accepts ip = true := by
  unfold Ipv6Match.accepts at ha ⊢
  rw [beq_iff_eq] at ha ⊢
  rw [h.addr]
  exact agree_of_part Words.and h.mask ha

/-- The mask written out, and the address cut to it. -/
def masked (r : Ipv6Match) : Ipv6Match := ⟨⟨r.addr.words.and r.maskWords⟩, some ⟨r.maskWords⟩⟩

theorem accepts_masked (r : Ipv6Match) : r.masked.accepts = r.accepts := by
  funext ip
  show (_ == (r.addr.words.and r.maskWords).and r.maskWords) = _
  rw [Words.and_assoc, Words.and_self]
  rfl

end Ipv6Match

namespace PortRange

structure Loosened (r r' : PortRange) : Prop where
  first : r'.first ≤ r.first
  last : r.last ≤ r'.last

variable {r r' r'' : PortRange}

theorem Loosened.refl (r : PortRange) : r.Loosened r := ⟨UInt16.le_refl _, UInt16.le_refl _⟩

theorem Loosened.trans (h : r.Loosened r') (h' : r'.Loosened r'') : r.Loosened r'' :=
  ⟨UInt16.le_trans h'.first h.first, UInt16.le_trans h.last h'.last⟩

theorem Loosened.contains (h : r.Loosened r') {port : UInt16} (hp : r.contains port = true) : r'.contains port = true := by
  unfold PortRange.contains at hp ⊢
  rw [Bool.and_eq_true, decide_eq_true_eq, decide_eq_true_eq] at hp ⊢
  exact ⟨UInt16.le_trans h.first hp.1, UInt16.le_trans hp.2 h.last⟩

end PortRange

namespace SpiMatch

/-- The pattern itself, or one of fewer bits with the value cut to them. -/
def Loosened (s s' : SpiMatch) : Prop := s' = s ∨ s'.mask &&& s.mask = s'.mask ∧ s'.value = s.value &&& s'.mask

variable {s s' s'' : SpiMatch}

theorem Loosened.refl (s : SpiMatch) : s.Loosened s := Or.inl rfl

theorem Loosened.trans (h : s.Loosened s') (h' : s'.Loosened s'') : s.Loosened s'' := by
  rcases h with rfl | ⟨hmask, hvalue⟩
  · exact h'
  rcases h' with rfl | ⟨hmask', hvalue'⟩
  · exact Or.inr ⟨hmask, hvalue⟩
  · refine Or.inr ⟨part_trans (· &&& ·) hmask hmask', ?_⟩
    rw [hvalue', hvalue, UInt32.and_assoc, UInt32.and_comm s'.mask, hmask']

theorem Loosened.accepts (h : s.Loosened s') {spi : UInt32} (ha : s.accepts spi = true) : s'.accepts spi = true := by
  rcases h with rfl | ⟨hmask, hvalue⟩
  · exact ha
  · unfold SpiMatch.accepts at ha ⊢
    rw [beq_iff_eq] at ha ⊢
    rw [hvalue, ← ha, UInt32.and_assoc, UInt32.and_comm s.mask, hmask]

end SpiMatch

/-- What is still asked for was asked for, and is at most loosened as `R` says. -/
def DroppedOr {α : Type} (R : α → α → Prop) (a b : Option α) : Prop := ∀ y ∈ b, ∃ x ∈ a, R x y

namespace DroppedOr

variable {α : Type} {R : α → α → Prop} {a b c : Option α}

theorem dropped (a : Option α) : DroppedOr R a none := fun _ hy => by cases hy

theorem loosened {x y : α} (h : R x y) : DroppedOr R (some x) (some y) := by
  intro z hz
  obtain rfl : y = z := Option.some.inj hz
  exact ⟨x, rfl, h⟩

theorem refl (hR : ∀ x, R x x) (a : Option α) : DroppedOr R a a := fun y hy => ⟨y, hy, hR y⟩

theorem trans (hR : ∀ {x y z}, R x y → R y z → R x z) (h : DroppedOr R a b) (h' : DroppedOr R b c) : DroppedOr R a c := by
  intro z hz
  obtain ⟨y, hy, hyz⟩ := h' z hz
  obtain ⟨x, hx, hxy⟩ := h y hy
  exact ⟨x, hx, hR hxy hyz⟩

theorem forall_mem (h : DroppedOr R a b) {P Q : α → Prop} (hPQ : ∀ {x y}, R x y → P x → Q y) (ha : ∀ x ∈ a, P x) :
    ∀ y ∈ b, Q y := by
  intro y hy
  obtain ⟨x, hx, hxy⟩ := h y hy
  exact hPQ hxy (ha x hx)

theorem forall_mem_eq (h : DroppedOr Eq a b) {P : α → Prop} (ha : ∀ x ∈ a, P x) : ∀ y ∈ b, P y :=
  h.forall_mem (fun hxy hx => hxy ▸ hx) ha

end DroppedOr

/-! ## The match -/

namespace FlowMatch

/-- Each criterion stays, is loosened or goes, but the interface stays and may come. -/
structure Loosened (f g : FlowMatch) : Prop where
  ipVersion : DroppedOr Eq f.ipVersion g.ipVersion
  srcMac : DroppedOr Eq f.srcMac g.srcMac
  dstMac : DroppedOr Eq f.dstMac g.dstMac
  dstIfindex : ∀ n ∈ f.dstIfindex, n ∈ g.dstIfindex
  srcIpv4 : DroppedOr Ipv4Match.Loosened f.srcIpv4 g.srcIpv4
  dstIpv4 : DroppedOr Ipv4Match.Loosened f.dstIpv4 g.dstIpv4
  srcIpv6 : DroppedOr Ipv6Match.Loosened f.srcIpv6 g.srcIpv6
  dstIpv6 : DroppedOr Ipv6Match.Loosened f.dstIpv6 g.dstIpv6
  srcPort : DroppedOr Eq f.srcPort g.srcPort
  dstPort : DroppedOr Eq f.dstPort g.dstPort
  srcPortRange : DroppedOr PortRange.Loosened f.srcPortRange g.srcPortRange
  dstPortRange : DroppedOr PortRange.Loosened f.dstPortRange g.dstPortRange
  protocol : DroppedOr Eq f.protocol g.protocol
  dscp : DroppedOr Eq f.dscp g.dscp
  vlanPcp : DroppedOr Eq f.vlanPcp g.vlanPcp
  vlanId : DroppedOr Eq f.vlanId g.vlanId
  spi : DroppedOr SpiMatch.Loosened f.spi g.spi

namespace Loosened

variable {f g k : FlowMatch}

theorem refl (f : FlowMatch) : f.Loosened f := by
  constructor
  case dstIfindex => exact fun _ hn => hn
  case srcIpv4 | dstIpv4 => exact .refl .refl _
  case srcIpv6 | dstIpv6 => exact .refl .refl _
  case srcPortRange | dstPortRange => exact .refl .refl _
  case spi => exact .refl .refl _
  all_goals exact .refl (fun _ => rfl) _

theorem trans (h : f.Loosened g) (h' : g.Loosened k) : f.Loosened k where
  ipVersion := h.ipVersion.trans Eq.trans h'.ipVersion
  srcMac := h.srcMac.trans Eq.trans h'.srcMac
  dstMac := h.dstMac.trans Eq.trans h'.dstMac
  dstIfindex := fun n hn => h'.dstIfindex n (h.dstIfindex n hn)
  srcIpv4 := h.srcIpv4.trans .trans h'.srcIpv4
  dstIpv4 := h.dstIpv4.trans .trans h'.dstIpv4
  srcIpv6 := h.srcIpv6.trans .trans h'.srcIpv6
  dstIpv6 := h.dstIpv6.trans .trans h'.dstIpv6
  srcPort := h.srcPort.trans Eq.trans h'.srcPort
  dstPort := h.dstPort.trans Eq.trans h'.dstPort
  srcPortRange := h.srcPortRange.trans .trans h'.srcPortRange
  dstPortRange := h.dstPortRange.trans .trans h'.dstPortRange
  protocol := h.protocol.trans Eq.trans h'.protocol
  dscp := h.dscp.trans Eq.trans h'.dscp
  vlanPcp := h.vlanPcp.trans Eq.trans h'.vlanPcp
  vlanId := h.vlanId.trans Eq.trans h'.vlanId
  spi := h.spi.trans .trans h'.spi

theorem acceptsDevice (h : f.Loosened g) {i : FlowInput} {c : Classifier} {mac : Mac} (hf : f.acceptsDevice i c mac = true) :
    g.acceptsDevice i c mac = true := by
  obtain ⟨hc, hnamed, hleaves, haddr⟩ := acceptsDevice_iff.1 hf
  obtain ⟨n, hn⟩ := Option.isSome_iff_exists.1 hnamed
  have hg : g.dstIfindex = some n := h.dstIfindex n hn
  exact acceptsDevice_iff.2 ⟨hc, by rw [hg]; rfl, by rw [hg, ← hn, hleaves], haddr⟩

theorem meets (h : f.Loosened g) {i : FlowInput} {c : Classifier} (hf : f.Meets i c) : g.Meets i c where
  ipVersion := h.ipVersion.forall_mem_eq hf.ipVersion
  srcMac := h.srcMac.forall_mem_eq hf.srcMac
  dstMac := fun mac hmac => (h.dstMac.forall_mem_eq hf.dstMac mac hmac).imp_right h.acceptsDevice
  srcIpv4 := h.srcIpv4.forall_mem (fun hr ⟨a, ha, hra⟩ => ⟨a, ha, hr.accepts hra⟩) hf.srcIpv4
  dstIpv4 := h.dstIpv4.forall_mem (fun hr ⟨a, ha, hra⟩ => ⟨a, ha, hr.accepts hra⟩) hf.dstIpv4
  srcIpv6 := h.srcIpv6.forall_mem (fun hr ⟨a, ha, hra⟩ => ⟨a, ha, hr.accepts hra⟩) hf.srcIpv6
  dstIpv6 := h.dstIpv6.forall_mem (fun hr ⟨a, ha, hra⟩ => ⟨a, ha, hr.accepts hra⟩) hf.dstIpv6
  srcPort := h.srcPort.forall_mem_eq hf.srcPort
  dstPort := h.dstPort.forall_mem_eq hf.dstPort
  srcPortRange := h.srcPortRange.forall_mem (fun hr hp => hr.contains hp) hf.srcPortRange
  dstPortRange := h.dstPortRange.forall_mem (fun hr hp => hr.contains hp) hf.dstPortRange
  protocol := h.protocol.forall_mem_eq hf.protocol
  dscp := h.dscp.forall_mem_eq hf.dscp
  vlanPcp := h.vlanPcp.forall_mem_eq hf.vlanPcp
  vlanId := h.vlanId.forall_mem_eq hf.vlanId
  spi := h.spi.forall_mem (fun hs ha => hs.accepts ha) hf.spi

end Loosened

/-- Every address cut to its mask, and the mask written out. -/
def masked (f : FlowMatch) : FlowMatch :=
  { f with
    srcIpv4 := f.srcIpv4.map (·.masked), dstIpv4 := f.dstIpv4.map (·.masked)
    srcIpv6 := f.srcIpv6.map (·.masked), dstIpv6 := f.dstIpv6.map (·.masked) }

/-- **A match goes by the bits of its addresses that are under their masks.** -/
theorem accepts_masked (f : FlowMatch) (i : FlowInput) (c : Classifier) : f.masked.accepts i c = f.accepts i c := by
  unfold accepts masked
  simp only [Option.all_map, Ipv4Match.accepts_masked, Ipv6Match.accepts_masked]
  rfl

/-- **Loosening a match loses no flow**, whatever is loosened in it and for whatever family.  Under a mask of zeros every
address of its version is accepted, a mask of ones is as good as none, and matches that differ in address bits outside
their masks, or in whether a mask of ones is written out, accept the same flows. -/
theorem loosened_keeps_flows :
    (∀ f g : FlowMatch, f.Loosened g → ∀ i c, f.accepts i c = true → g.accepts i c = true) ∧
    (∀ addr ip, (⟨addr, some ⟨0⟩⟩ : Ipv4Match).accepts ip = true) ∧
    (∀ addr ip, (⟨addr, some ⟨.zero⟩⟩ : Ipv6Match).accepts ip = true) ∧
    (∀ addr, (⟨addr, some ⟨0xffffffff⟩⟩ : Ipv4Match).masked = (⟨addr, none⟩ : Ipv4Match).masked) ∧
    (∀ addr, (⟨addr, some ⟨⟨0xffffffff, 0xffffffff, 0xffffffff, 0xffffffff⟩⟩⟩ : Ipv6Match).masked =
      (⟨addr, none⟩ : Ipv6Match).masked) ∧
    ∀ f g : FlowMatch, f.masked = g.masked → ∀ i c, f.accepts i c = g.accepts i c := by
  refine ⟨fun f g h i c hf => accepts_iff.2 (h.meets (accepts_iff.1 hf)), fun addr ip => ?_, fun addr ip => ?_,
    fun _ => rfl, fun _ => rfl, fun f g h i c => ?_⟩
  · show (ip.bits &&& 0 == addr.bits &&& 0) = true
    rw [UInt32.and_zero, UInt32.and_zero, beq_self_eq_true]
  · show (ip.words.and .zero == addr.words.and .zero) = true
    simp [Words.and, Words.zero]
  · rw [← accepts_masked f, h, accepts_masked g]

/-- A tunnel of one host to a range of ports. -/
def tunnel : FlowMatch :=
  { ipVersion := some .v4, dstMac := some ⟨2, 0, 0, 0, 0, 1⟩, srcIpv4 := some { addr := .ofOctets 10 0 0 7 }
    dstPortRange := some ⟨440, 450⟩, protocol := some 50, spi := some { value := 0x1234 } }

/-- A tunnel of its network, to it or by its interface. -/
def tunnels : FlowMatch :=
  { dstMac := some ⟨2, 0, 0, 0, 0, 1⟩, dstIfindex := some 7
    srcIpv4 := some { addr := .ofOctets 10 0 0 7, mask := some (.ofOctets 255 255 0 0) }
    dstPortRange := some ⟨400, 500⟩, protocol := some 50, spi := some { value := 0x1200, mask := 0xff00 } }

theorem tunnel_loosened : tunnel.Loosened tunnels := by
  have hdropped : tunnel.Loosened { tunnel with ipVersion := none } := { Loosened.refl tunnel with ipVersion := .dropped _ }
  have hnetwork : Ipv4Match.Loosened { addr := .ofOctets 10 0 0 7 }
      { addr := .ofOctets 10 0 0 7, mask := some (.ofOctets 255 255 0 0) } := ⟨rfl, by decide⟩
  refine hdropped.trans { Loosened.refl _ with
    dstIfindex := fun _ hn => by cases hn
    srcIpv4 := .loosened hnetwork
    dstPortRange := .loosened ⟨by decide, by decide⟩
    spi := .loosened (Or.inr ⟨by decide, by decide⟩) }

/-- The network named by another of its hosts. -/
def neighbours : FlowMatch :=
  { tunnels with srcIpv4 := some { addr := .ofOctets 10 0 9 9, mask := some (.ofOctets 255 255 0 0) } }

def tunnelled : FlowInput :=
  { srcIp := some (.v4 (.ofOctets 10 0 0 7)), dstMac := ⟨2, 0, 0, 0, 0, 1⟩, dstPort := 450, protocol := 50, spi := 0x1234 }

theorem loosened_keeps_flows_tunnelled :
    tunnel.Loosened tunnels ∧ tunnel.accepts tunnelled .sawf = true ∧ tunnels.accepts tunnelled .sawf = true ∧
    tunnels.masked = neighbours.masked ∧ neighbours.accepts tunnelled .sawf = true := by
  obtain ⟨hkeeps, -, -, -, -, hunder⟩ := loosened_keeps_flows
  have haccepts : tunnel.accepts tunnelled .sawf = true := by decide
  have hmasked : tunnels.masked = neighbours.masked := by decide
  have hloosened := hkeeps tunnel tunnels tunnel_loosened tunnelled .sawf haccepts
  exact ⟨tunnel_loosened, haccepts, hloosened, hmasked, (hunder _ _ hmasked tunnelled .sawf).symm.trans hloosened⟩

/-- Of the interface it is the other way round: without it flows are lost that it let in. -/
example :
    let named : FlowMatch := { dstMac := some ⟨2, 0, 0, 0, 0, 1⟩, dstIfindex := some 7 }
    let flow : FlowInput := { dstIfindex := some 7, devAddr := ⟨2, 0, 0, 0, 0, 1⟩ }
    named.accepts flow .scs = true ∧ { named with dstIfindex := none }.accepts flow .scs = false := by decide

end FlowMatch
end TrafficRules
