import TrafficRules.Address.Mac
import TrafficRules.Flow.Tuple
/-!
# Frame — a raw frame as the mesh path sees it

A frame has its link-layer addresses, perhaps a VLAN tag, and a network header of which the fields that rules ask for are
kept (`Network`).  The DS field of an IP header holds a priority of its own.
-/
namespace TrafficRules

namespace Protocol

def tcp : UInt8 := 6

def udp : UInt8 := 17

end Protocol

structure Ipv4Header where
  src : Ipv4
  dst : Ipv4
  dsField : UInt8 := 0
  protocol : UInt8 := 0
  srcPort : UInt16 := 0
  dstPort : UInt16 := 0
  deriving DecidableEq, Repr

/-- The ports of TCP and UDP; other protocols have none and count as zero. -/
def Ipv4Header.ports (h : Ipv4Header) : UInt16 × UInt16 :=
  if h.protocol = Protocol.tcp ∨ h.protocol = Protocol.udp then (h.srcPort, h.dstPort) else (0, 0)

inductive Network where
  | ipv4 (header : Ipv4Header)
  | ipv6 (dsField : UInt8)
  | other
  deriving DecidableEq, Inhabited, Repr

namespace Network

def ipv4? : Network → Option Ipv4Header
  | .ipv4 h => some h
  | _ => none

/-- The priority in the DS field of an IP header. -/
def dscpPcp : Network → Option UInt8
  | .ipv4 h => some (DsField.pcp h.dsField)
  | .ipv6 ds => some (DsField.pcp ds)
  | .other => none

end Network

structure Frame where
  priority : UInt8 := 0
  srcMac : Mac := .zero
  dstMac : Mac := .zero
  vlanTci : Option UInt16 := none
  network : Network := .other
  deriving DecidableEq, Inhabited, Repr

def Frame.ipv4? (f : Frame) : Option Ipv4Header := f.network.ipv4?

end TrafficRules
