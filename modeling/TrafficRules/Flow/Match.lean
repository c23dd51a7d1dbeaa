import TrafficRules.Classifier
import TrafficRules.Flow.Input
/-!
# Match — structured flow matching

A flow match names any number of fields; an absent field accepts everything.  Addresses may be masked, ports may be
ranges.  The SPI is masked on the input's side only: the masked input has to be the value, and the value itself is not
masked.  A destination address that differs is still accepted for stream classification when the rule names the interface
the flow leaves by and that interface has the wanted address.  A match that no flow can be checked against has a fault.
It is written as its named fields, each with its value and its mask if it has one.
-/
namespace TrafficRules

structure Ipv4Match where
  addr : Ipv4
  mask : Option Ipv4 := none
  deriving DecidableEq, Repr

namespace Ipv4Match

def maskBits (m : Ipv4Match) : UInt32 := (m.mask.map (·.bits)).getD 0xffffffff

def accepts (m : Ipv4Match) (ip : Ipv4) : Bool := ip.bits &&& m.maskBits == m.addr.bits &&& m.maskBits

end Ipv4Match

structure Ipv6Match where
  addr : Ipv6
  mask : Option Ipv6 := none
  deriving DecidableEq, Repr

namespace Ipv6Match

def maskWords (m : Ipv6Match) : Words :=
  (m.mask.map (·.words)).getD ⟨0xffffffff, 0xffffffff, 0xffffffff, 0xffffffff⟩

def accepts (m : Ipv6Match) (ip : Ipv6) : Bool := ip.words.and m.maskWords == m.addr.words.and m.maskWords

end Ipv6Match

structure PortRange where
  first : UInt16
  last : UInt16
  deriving DecidableEq, Repr

namespace PortRange

def contains (r : PortRange) (port : UInt16) : Bool := r.first ≤ port && port ≤ r.last

def isValid (r : PortRange) : Bool := r.first ≤ r.last

end PortRange

structure SpiMatch where
  value : UInt32
  mask : UInt32 := 0xffffffff
  deriving DecidableEq, Repr

def SpiMatch.accepts (m : SpiMatch) (spi : UInt32) : Bool := spi &&& m.mask == m.value

structure FlowMatch where
  ipVersion : Option IpVersion := none
  srcMac : Option Mac := none
  dstMac : Option Mac := none
  dstIfindex : Option UInt32 := none
  srcIpv4 : Option Ipv4Match := none
  dstIpv4 : Option Ipv4Match := none
  srcIpv6 : Option Ipv6Match := none
  dstIpv6 : Option Ipv6Match := none
  srcPort : Option UInt16 := none
  dstPort : Option UInt16 := none
  srcPortRange : Option PortRange := none
  dstPortRange : Option PortRange := none
  protocol : Option UInt8 := none
  dscp : Option UInt8 := none
  vlanPcp : Option UInt8 := none
  vlanId : Option UInt16 := none
  spi : Option SpiMatch := none
  srcIface : Option String := none
  dstIface : Option String := none
  deriving DecidableEq, Inhabited, Repr

inductive FlowFault where
  | reversedRange (field : String) (range : PortRange)
  | vlanPcp (value : UInt8)
  | dscp (value : UInt8)
  deriving DecidableEq, Repr

def FlowFault.message : FlowFault → String
  | .reversedRange field r => s!"{field} start {r.first} is above end {r.last}"
  | .vlanPcp n => s!"vlan_pcp {n} is out of range"
  | .dscp n => s!"dscp {n} is out of range"

namespace FlowMatch

/-- The first fault of a match, in the order source range, destination range, VLAN priority, code point. -/
def fault? (m : FlowMatch) : Option FlowFault :=
  if let some r := m.srcPortRange.filter (!·.isValid) then some (.reversedRange "src_port_range" r)
  else if let some r := m.dstPortRange.filter (!·.isValid) then some (.reversedRange "dst_port_range" r)
  else if let some n := m.vlanPcp.filter (7 < ·) then some (.vlanPcp n)
  else if let some n := m.dscp.filter (63 < ·) then some (.dscp n)
  else none

/-- The tuple a rule names: both IPv4 addresses if it has both, else both IPv6 addresses, else none. -/
def tuple (m : FlowMatch) : FlowTuple :=
  let (src, dst) :=
    match m.srcIpv4, m.dstIpv4 with
    | some s, some d => ((Ip.v4 s.addr).words, (Ip.v4 d.addr).words)
    | _, _ =>
      match m.srcIpv6, m.dstIpv6 with
      | some s, some d => ((Ip.v6 s.addr).words, (Ip.v6 d.addr).words)
      | _, _ => (.zero, .zero)
  ⟨src, dst, m.srcPort.getD 0, m.dstPort.getD 0, m.protocol.getD 0⟩

/-- The interface's own address stands in for the destination address. -/
def acceptsDevice (m : FlowMatch) (i : FlowInput) (c : Classifier) (mac : Mac) : Bool :=
  c.isScsLike && m.dstIfindex.any fun n => i.devAddr == mac && i.dstIfindex == some n

def accepts (m : FlowMatch) (i : FlowInput) (c : Classifier) : Bool :=
  m.ipVersion.all (fun v => i.ipVersion == some v)
    && m.dstMac.all (fun mac => i.dstMac == mac || m.acceptsDevice i c mac)
    && m.dstPort.all (i.dstPort == ·)
    && m.dstPortRange.all (·.contains i.dstPort)
    && m.dstIpv4.all (fun r => i.dstIpv4.any r.accepts)
    && m.srcMac.all (i.srcMac == ·)
    && m.srcIpv6.all (fun r => i.srcIpv6.any r.accepts)
    && m.dstIpv6.all (fun r => i.dstIpv6.any r.accepts)
    && m.srcPort.all (i.srcPort == ·)
    && m.srcPortRange.all (·.contains i.srcPort)
    && m.srcIpv4.all (fun r => i.srcIpv4.any r.accepts)
    && m.protocol.all (i.protocol == ·)
    && m.dscp.all (i.dscp == ·)
    && m.vlanPcp.all (fun n => i.vlanPcp == some n)
    && m.vlanId.all (fun n => i.vlanId == some n)
    && m.spi.all (·.accepts i.spi)

def renderMasked (name addr : String) : Option String → String
  | none => name ++ "=" ++ addr
  | some mask => name ++ "=" ++ addr ++ "/" ++ mask

def renderIpv4 (name : String) (r : Ipv4Match) : String := renderMasked name r.addr.render (r.mask.map (·.render))

def renderIpv6 (name : String) (r : Ipv6Match) : String := renderMasked name r.addr.render (r.mask.map (·.render))

/-- The named fields, each with its value. -/
def renderParts (m : FlowMatch) : List String :=
  [m.ipVersion.map fun v => s!"ipv{v.number}",
   m.srcMac.map fun a => "smac=" ++ a.render,
   m.dstMac.map fun a => "dmac=" ++ a.render,
   m.srcIpv4.map (renderIpv4 "sip"),
   m.dstIpv4.map (renderIpv4 "dip"),
   m.srcIpv6.map (renderIpv6 "sip6"),
   m.dstIpv6.map (renderIpv6 "dip6"),
   m.srcPort.map fun p => s!"sport={p}",
   m.srcPortRange.map fun r => s!"sport={r.first}-{r.last}",
   m.dstPort.map fun p => s!"dport={p}",
   m.dstPortRange.map fun r => s!"dport={r.first}-{r.last}",
   m.protocol.map fun p => s!"proto={p}",
   m.dscp.map fun d => s!"dscp={d}",
   m.vlanPcp.map fun p => s!"pcp={p}",
   m.vlanId.map fun v => s!"vid={v}",
   m.spi.map fun s => "spi=0x" ++ Digits.hex s.value.toNat ++ "/0x" ++ Digits.hex s.mask.toNat].filterMap fun part => part

def render (m : FlowMatch) : String :=
  match m.renderParts with
  | [] => "any"
  | parts => " ".intercalate parts

end FlowMatch
end TrafficRules
