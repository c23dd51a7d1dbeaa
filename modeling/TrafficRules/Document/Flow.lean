import TrafficRules.Document.Value
import TrafficRules.Flow.Match
/-!
# Flow — documents of addresses, tuples and flow criteria
-/
namespace TrafficRules

def Mac.parse? (s : String) : Option Mac := (Mac.parse s).toOption

def Mac.toValue (m : Mac) : Value := .text m.render

def Mac.ofValue? (v : Value) : Option Mac := v.parsed? Mac.parse?

def Ipv4.toValue (a : Ipv4) : Value := .text a.render

def Ipv4.ofValue? (v : Value) : Option Ipv4 := v.parsed? Ipv4.parse?

def Ipv6.toValue (a : Ipv6) : Value := .text a.render

def Ipv6.ofValue? (v : Value) : Option Ipv6 := v.parsed? Ipv6.parse?

def Ip.toValue (a : Ip) : Value := .text a.render

def Ip.ofValue? (v : Value) : Option Ip := v.parsed? Ip.parse?

def Classifier.toValue (c : Classifier) : Value := .text c.name

def Classifier.ofValue? (v : Value) : Option Classifier :=
  v.named? (Classifier.all.map (·.name)) Classifier.ofName?

namespace IpVersion

/-- The version as a text, `"4"` or `"6"`. -/
def name : IpVersion → String
  | .v4 => "4"
  | .v6 => "6"

def all : List IpVersion := [.v4, .v6]

def ofName? (s : String) : Option IpVersion := all.find? (·.name == s)

def toValue (v : IpVersion) : Value := .text v.name

def ofValue? (v : Value) : Option IpVersion := v.named? (all.map (·.name)) ofName?

end IpVersion

def Words.toValue (w : Words) : Value := .list (w.toList.map .u32)

def Words.ofValue? (v : Value) : Option Words :=
  (v.list? Value.u32?).bind fun
    | [a, b, c, d] => some ⟨a, b, c, d⟩
    | _ => none

namespace FlowTuple

def toValue (t : FlowTuple) : Value :=
  .record [("src_addr", t.srcAddr.toValue), ("dst_addr", t.dstAddr.toValue), ("src_port", .u16 t.srcPort),
    ("dst_port", .u16 t.dstPort), ("protocol", .u8 t.protocol)]

def ofValue? (v : Value) : Option FlowTuple := do
  let fs ← v.fields? ["src_addr", "dst_addr", "src_port", "dst_port", "protocol"] 5
  let srcAddr ← fs.required "src_addr" Words.ofValue?
  let dstAddr ← fs.required "dst_addr" Words.ofValue?
  let srcPort ← fs.required "src_port" Value.u16?
  let dstPort ← fs.required "dst_port" Value.u16?
  let protocol ← fs.required "protocol" Value.u8?
  some { srcAddr, dstAddr, srcPort, dstPort, protocol }

end FlowTuple

namespace Ipv4Match

def toValue (m : Ipv4Match) : Value :=
  .record (("addr", m.addr.toValue) :: Value.presentField "mask" Ipv4.toValue m.mask)

def ofValue? (v : Value) : Option Ipv4Match := do
  let fs ← v.fields? ["addr", "mask"] 1
  let addr ← fs.required "addr" Ipv4.ofValue?
  let mask ← fs.optional "mask" Ipv4.ofValue?
  some { addr, mask }

end Ipv4Match

namespace Ipv6Match

def toValue (m : Ipv6Match) : Value :=
  .record (("addr", m.addr.toValue) :: Value.presentField "mask" Ipv6.toValue m.mask)

def ofValue? (v : Value) : Option Ipv6Match := do
  let fs ← v.fields? ["addr", "mask"] 1
  let addr ← fs.required "addr" Ipv6.ofValue?
  let mask ← fs.optional "mask" Ipv6.ofValue?
  some { addr, mask }

end Ipv6Match

namespace PortRange

def toValue (r : PortRange) : Value := .record [("start", .u16 r.first), ("end", .u16 r.last)]

def ofValue? (v : Value) : Option PortRange := do
  let fs ← v.fields? ["start", "end"] 2
  let first ← fs.required "start" Value.u16?
  let last ← fs.required "end" Value.u16?
  some { first, last }

end PortRange

namespace SpiMatch

def toValue (m : SpiMatch) : Value := .record [("value", .u32 m.value), ("mask", .u32 m.mask)]

def ofValue? (v : Value) : Option SpiMatch := do
  let fs ← v.fields? ["value", "mask"] 1
  let value ← fs.required "value" Value.u32?
  let mask ← fs.withDefault "mask" 0xffffffff Value.u32?
  some { value, mask }

end SpiMatch

namespace FlowMatch

def fieldNames : List String :=
  ["ip_version", "src_mac", "dst_mac", "dst_ifindex", "src_ipv4", "dst_ipv4", "src_ipv6", "dst_ipv6", "src_port",
   "dst_port", "src_port_range", "dst_port_range", "protocol", "dscp", "vlan_pcp", "vlan_id", "spi", "src_iface",
   "dst_iface"]

def toValue (m : FlowMatch) : Value :=
  .record [("ip_version", .orNull IpVersion.toValue m.ipVersion), ("src_mac", .orNull Mac.toValue m.srcMac),
    ("dst_mac", .orNull Mac.toValue m.dstMac), ("dst_ifindex", .orNull .u32 m.dstIfindex),
    ("src_ipv4", .orNull Ipv4Match.toValue m.srcIpv4), ("dst_ipv4", .orNull Ipv4Match.toValue m.dstIpv4),
    ("src_ipv6", .orNull Ipv6Match.toValue m.srcIpv6), ("dst_ipv6", .orNull Ipv6Match.toValue m.dstIpv6),
    ("src_port", .orNull .u16 m.srcPort), ("dst_port", .orNull .u16 m.dstPort),
    ("src_port_range", .orNull PortRange.toValue m.srcPortRange),
    ("dst_port_range", .orNull PortRange.toValue m.dstPortRange), ("protocol", .orNull .u8 m.protocol),
    ("dscp", .orNull .u8 m.dscp), ("vlan_pcp", .orNull .u8 m.vlanPcp), ("vlan_id", .orNull .u16 m.vlanId),
    ("spi", .orNull SpiMatch.toValue m.spi), ("src_iface", .orNull .text m.srcIface),
    ("dst_iface", .orNull .text m.dstIface)]

def ofValue? (v : Value) : Option FlowMatch := do
  let fs ← v.fields? fieldNames 0
  let ipVersion ← fs.optional "ip_version" IpVersion.ofValue?
  let srcMac ← fs.optional "src_mac" Mac.ofValue?
  let dstMac ← fs.optional "dst_mac" Mac.ofValue?
  let dstIfindex ← fs.optional "dst_ifindex" Value.u32?
  let srcIpv4 ← fs.optional "src_ipv4" Ipv4Match.ofValue?
  let dstIpv4 ← fs.optional "dst_ipv4" Ipv4Match.ofValue?
  let srcIpv6 ← fs.optional "src_ipv6" Ipv6Match.ofValue?
  let dstIpv6 ← fs.optional "dst_ipv6" Ipv6Match.ofValue?
  let srcPort ← fs.optional "src_port" Value.u16?
  let dstPort ← fs.optional "dst_port" Value.u16?
  let srcPortRange ← fs.optional "src_port_range" PortRange.ofValue?
  let dstPortRange ← fs.optional "dst_port_range" PortRange.ofValue?
  let protocol ← fs.optional "protocol" Value.u8?
  let dscp ← fs.optional "dscp" Value.u8?
  let vlanPcp ← fs.optional "vlan_pcp" Value.u8?
  let vlanId ← fs.optional "vlan_id" Value.u16?
  let spi ← fs.optional "spi" SpiMatch.ofValue?
  let srcIface ← fs.optional "src_iface" Value.text?
  let dstIface ← fs.optional "dst_iface" Value.text?
  some { ipVersion, srcMac, dstMac, dstIfindex, srcIpv4, dstIpv4, srcIpv6, dstIpv6, srcPort, dstPort, srcPortRange,
         dstPortRange, protocol, dscp, vlanPcp, vlanId, spi, srcIface, dstIface }

end FlowMatch

namespace FlowInput

def fieldNames : List String :=
  ["src_mac", "dst_mac", "src_ip", "dst_ip", "src_port", "dst_port", "protocol", "dscp", "vlan_tci", "spi",
   "dst_ifindex", "dev_addr", "priority", "dest_dev"]

def toFields (i : FlowInput) : Fields :=
  [("src_mac", i.srcMac.toValue), ("dst_mac", i.dstMac.toValue), ("src_ip", .orNull Ip.toValue i.srcIp),
   ("dst_ip", .orNull Ip.toValue i.dstIp), ("src_port", .u16 i.srcPort), ("dst_port", .u16 i.dstPort),
   ("protocol", .u8 i.protocol), ("dscp", .u8 i.dscp), ("vlan_tci", .orNull .u16 i.vlanTci), ("spi", .u32 i.spi),
   ("dst_ifindex", .orNull .u32 i.dstIfindex), ("dev_addr", i.devAddr.toValue), ("priority", .u8 i.priority),
   ("dest_dev", .orNull .text i.destDev)]

def ofValue? (v : Value) : Option FlowInput := do
  let fs ← v.fields? fieldNames 0
  let srcMac ← fs.withDefault "src_mac" .zero Mac.ofValue?
  let dstMac ← fs.withDefault "dst_mac" .zero Mac.ofValue?
  let srcIp ← fs.optional "src_ip" Ip.ofValue?
  let dstIp ← fs.optional "dst_ip" Ip.ofValue?
  let srcPort ← fs.withDefault "src_port" 0 Value.u16?
  let dstPort ← fs.withDefault "dst_port" 0 Value.u16?
  let protocol ← fs.withDefault "protocol" 0 Value.u8?
  let dscp ← fs.withDefault "dscp" 0 Value.u8?
  let vlanTci ← fs.optional "vlan_tci" Value.u16?
  let spi ← fs.withDefault "spi" 0 Value.u32?
  let dstIfindex ← fs.optional "dst_ifindex" Value.u32?
  let devAddr ← fs.withDefault "dev_addr" .zero Mac.ofValue?
  let priority ← fs.withDefault "priority" 0 Value.u8?
  let destDev ← fs.optional "dest_dev" Value.text?
  some { srcMac, dstMac, srcIp, dstIp, srcPort, dstPort, protocol, dscp, vlanTci, spi, dstIfindex, devAddr, priority,
         destDev }

end FlowInput
end TrafficRules
