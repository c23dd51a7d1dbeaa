import TrafficRules.Address.Mac
import TrafficRules.Flow.Tuple
/-!
# Input — a flow to be classified

The fields of a flow that matches may ask for, with the own address of the destination interface and the destination
device, which flows that leave no interface have not.  Missing addresses count as zero in the tuple of the flow.
-/
namespace TrafficRules

structure FlowInput where
  srcMac : Mac := .zero
  dstMac : Mac := .zero
  srcIp : Option Ip := none
  dstIp : Option Ip := none
  srcPort : UInt16 := 0
  dstPort : UInt16 := 0
  protocol : UInt8 := 0
  dscp : UInt8 := 0
  vlanTci : Option UInt16 := none
  spi : UInt32 := 0
  dstIfindex : Option UInt32 := none
  devAddr : Mac := .zero
  priority : UInt8 := 0
  destDev : Option String := none
  deriving DecidableEq, Repr

namespace FlowInput

/-- The version of the destination address, or else of the source address. -/
def ipVersion (i : FlowInput) : Option IpVersion := (i.dstIp.or i.srcIp).map (·.version)

def srcIpv4 (i : FlowInput) : Option Ipv4 := i.srcIp.bind (·.v4?)

def dstIpv4 (i : FlowInput) : Option Ipv4 := i.dstIp.bind (·.v4?)

def srcIpv6 (i : FlowInput) : Option Ipv6 := i.srcIp.bind (·.v6?)

def dstIpv6 (i : FlowInput) : Option Ipv6 := i.dstIp.bind (·.v6?)

def vlanPcp (i : FlowInput) : Option UInt8 := i.vlanTci.map Vlan.pcp

def vlanId (i : FlowInput) : Option UInt16 := i.vlanTci.map Vlan.id

def tuple (i : FlowInput) : FlowTuple :=
  ⟨(i.srcIp.map (·.words)).getD .zero, (i.dstIp.map (·.words)).getD .zero, i.srcPort, i.dstPort, i.protocol⟩

end FlowInput
end TrafficRules
