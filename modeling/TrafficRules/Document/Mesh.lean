import TrafficRules.Document.Flow
import TrafficRules.Mesh.Flags
/-!
# Mesh — documents of frames and mesh criteria

A criterion is a record of one field, named for its kind.
-/
namespace TrafficRules

namespace Criterion

def toValue : Criterion → Value
  | .userPriority v => .record [("user_priority", .u8 v)]
  | .sourceMac v => .record [("source_mac", v.toValue)]
  | .destMac v => .record [("dest_mac", v.toValue)]
  | .vlanId v => .record [("vlan_id", .u16 v)]
  | .dscp v => .record [("dscp", .u8 v)]
  | .sourceIpv4 v => .record [("source_ipv4", v.toValue)]
  | .destIpv4 v => .record [("dest_ipv4", v.toValue)]
  | .protocol v => .record [("protocol", .u8 v)]
  | .sourcePort v => .record [("source_port", .u16 v)]
  | .destPort v => .record [("dest_port", .u16 v)]

/-- The criterion of a kind's name with a value. -/
def ofField? (name : String) (v : Value) : Option Criterion :=
  if name = "user_priority" then v.u8?.map .userPriority
  else if name = "source_mac" then (Mac.ofValue? v).map .sourceMac
  else if name = "dest_mac" then (Mac.ofValue? v).map .destMac
  else if name = "vlan_id" then v.u16?.map .vlanId
  else if name = "dscp" then v.u8?.map .dscp
  else if name = "source_ipv4" then (Ipv4.ofValue? v).map .sourceIpv4
  else if name = "dest_ipv4" then (Ipv4.ofValue? v).map .destIpv4
  else if name = "protocol" then v.u8?.map .protocol
  else if name = "source_port" then v.u16?.map .sourcePort
  else if name = "dest_port" then v.u16?.map .destPort
  else none

def kindNames : List String :=
  ["user_priority", "source_mac", "dest_mac", "vlan_id", "dscp", "source_ipv4", "dest_ipv4", "protocol", "source_port",
   "dest_port"]

def ofValue? (v : Value) : Option Criterion := do
  let c ← v.choice? kindNames
  ofField? c.name (← c.content)

end Criterion

def Sense.toValue (s : Sense) : Value := .text s.name

def Sense.ofValue? (v : Value) : Option Sense := v.named? (Sense.all.map (·.name)) Sense.ofName?

namespace Predicate

def toValue (p : Predicate) : Value := .record [("criterion", p.criterion.toValue), ("sense", p.sense.toValue)]

def ofValue? (v : Value) : Option Predicate := do
  let fs ← v.fields? ["criterion", "sense"] 1
  let criterion ← fs.required "criterion" Criterion.ofValue?
  let sense ← fs.withDefault "sense" .positive Sense.ofValue?
  some { criterion, sense }

end Predicate

namespace MeshMatch

def toValue (m : MeshMatch) : Value :=
  .record [("always", .bool m.always), ("predicates", .list (m.predicates.map (·.toValue)))]

def ofValue? (v : Value) : Option MeshMatch := do
  let fs ← v.fields? ["always", "predicates"] 0
  let always ← fs.withDefault "always" false Value.bool?
  let predicates ← fs.withDefault "predicates" [] (Value.list? Predicate.ofValue?)
  some { always, predicates }

end MeshMatch

namespace MeshFields

def fieldNames : List String :=
  ["user_priority", "src_mac", "dst_mac", "vlan_id", "dscp", "src_ipv4", "dst_ipv4", "protocol", "src_port",
   "dst_port"]

def toValue (f : MeshFields) : Value :=
  .record [("user_priority", .u8 f.userPriority), ("src_mac", f.srcMac.toValue), ("dst_mac", f.dstMac.toValue),
    ("vlan_id", .u16 f.vlanId), ("dscp", .u8 f.dscp), ("src_ipv4", .orNull Ipv4.toValue f.srcIpv4),
    ("dst_ipv4", .orNull Ipv4.toValue f.dstIpv4), ("protocol", .u8 f.protocol), ("src_port", .u16 f.srcPort),
    ("dst_port", .u16 f.dstPort)]

def ofValue? (v : Value) : Option MeshFields := do
  let fs ← v.fields? fieldNames 10
  let userPriority ← fs.required "user_priority" Value.u8?
  let srcMac ← fs.required "src_mac" Mac.ofValue?
  let dstMac ← fs.required "dst_mac" Mac.ofValue?
  let vlanId ← fs.required "vlan_id" Value.u16?
  let dscp ← fs.required "dscp" Value.u8?
  let srcIpv4 ← fs.optional "src_ipv4" Ipv4.ofValue?
  let dstIpv4 ← fs.optional "dst_ipv4" Ipv4.ofValue?
  let protocol ← fs.required "protocol" Value.u8?
  let srcPort ← fs.required "src_port" Value.u16?
  let dstPort ← fs.required "dst_port" Value.u16?
  some { userPriority, srcMac, dstMac, vlanId, dscp, srcIpv4, dstIpv4, protocol, srcPort, dstPort }

end MeshFields

namespace Ipv4Header

def toValue (h : Ipv4Header) : Value :=
  .record [("src", h.src.toValue), ("dst", h.dst.toValue), ("dsfield", .u8 h.dsField), ("protocol", .u8 h.protocol),
    ("src_port", .u16 h.srcPort), ("dst_port", .u16 h.dstPort)]

def ofValue? (v : Value) : Option Ipv4Header := do
  let fs ← v.fields? ["src", "dst", "dsfield", "protocol", "src_port", "dst_port"] 2
  let src ← fs.required "src" Ipv4.ofValue?
  let dst ← fs.required "dst" Ipv4.ofValue?
  let dsField ← fs.withDefault "dsfield" 0 Value.u8?
  let protocol ← fs.withDefault "protocol" 0 Value.u8?
  let srcPort ← fs.withDefault "src_port" 0 Value.u16?
  let dstPort ← fs.withDefault "dst_port" 0 Value.u16?
  some { src, dst, dsField, protocol, srcPort, dstPort }

end Ipv4Header

namespace Network

def toValue : Network → Value
  | .ipv4 h => .record [("ipv4", h.toValue)]
  | .ipv6 ds => .record [("ipv6", .record [("dsfield", .u8 ds)])]
  | .other => .text "other"

def ofValue? (v : Value) : Option Network := do
  let c ← v.choice? ["ipv4", "ipv6", "other"]
  match c.name, c.content with
  | "ipv4", some h => (Ipv4Header.ofValue? h).map .ipv4
  | "ipv6", some h => do
    let fs ← h.fields? ["dsfield"] 0
    let ds ← fs.withDefault "dsfield" 0 Value.u8?
    some (.ipv6 ds)
  | "other", none => some .other
  | _, _ => none

end Network

namespace Frame

def toFields (f : Frame) : Fields :=
  [("priority", .u8 f.priority), ("src_mac", f.srcMac.toValue), ("dst_mac", f.dstMac.toValue),
   ("vlan_tci", .orNull .u16 f.vlanTci), ("l3", f.network.toValue)]

def ofValue? (v : Value) : Option Frame := do
  let fs ← v.fields? ["priority", "src_mac", "dst_mac", "vlan_tci", "l3"] 0
  let priority ← fs.withDefault "priority" 0 Value.u8?
  let srcMac ← fs.withDefault "src_mac" .zero Mac.ofValue?
  let dstMac ← fs.withDefault "dst_mac" .zero Mac.ofValue?
  let vlanTci ← fs.optional "vlan_tci" Value.u16?
  let network ← fs.withDefault "l3" .other Network.ofValue?
  some { priority, srcMac, dstMac, vlanTci, network }

end Frame
end TrafficRules
