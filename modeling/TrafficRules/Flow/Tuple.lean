import TrafficRules.Address.Ip
/-!
# Tuple — the five-tuple of a flow and its hash

Addresses, ports and protocol as words.  The hash folds every word with exclusive or and keeps the even values below
255, so it is the same for both directions of a flow.  Beside it stand the fields of a VLAN tag, priority and identifier,
and of the DS octet, whose precedence bits are used as a priority.
-/
namespace TrafficRules

structure FlowTuple where
  srcAddr : Words := .zero
  dstAddr : Words := .zero
  srcPort : UInt16 := 0
  dstPort : UInt16 := 0
  protocol : UInt8 := 0
  deriving DecidableEq, Inhabited, Repr

namespace FlowTuple

def ofAddresses (src dst : Ip) (srcPort dstPort : UInt16) (protocol : UInt8) : FlowTuple :=
  ⟨src.words, dst.words, srcPort, dstPort, protocol⟩

def hashMask : UInt32 := 254

def hash (t : FlowTuple) : UInt32 :=
  (t.dstAddr.xor ^^^ t.srcAddr.xor ^^^ t.dstPort.toUInt32 ^^^ t.srcPort.toUInt32 ^^^ t.protocol.toUInt32) &&& hashMask

def render (t : FlowTuple) : String :=
  s!"{(Ip.ofWords t.srcAddr).render}:{t.srcPort} -> {(Ip.ofWords t.dstAddr).render}:{t.dstPort} proto {t.protocol}"

end FlowTuple

/-! Fields of a VLAN tag and of the DS octet. -/

namespace Vlan

def pcp (tci : UInt16) : UInt8 := (tci >>> 13).toUInt8

def id (tci : UInt16) : UInt16 := tci &&& 0x0fff

end Vlan

namespace DsField

def dscp (ds : UInt8) : UInt8 := ds >>> 2

def pcp (ds : UInt8) : UInt8 := ds >>> 5

end DsField
end TrafficRules
