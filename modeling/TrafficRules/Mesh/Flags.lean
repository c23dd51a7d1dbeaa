import TrafficRules.Mesh.Match
/-!
# Flags — the bitmask form of a mesh match

One flag bit and one sense bit per kind of criterion, the compared values in a record beside the word.  The sense bit
negates the criterion and is the one above its flag (`Criterion.Kind.senseFlag_eq`).  The word can hold one predicate of
each kind: of several the last value is kept, and a sense bit once set stays set.  A word is read kind by kind in a fixed
order (`Criterion.Kind.all`), which is the order of the predicates read.
-/
namespace TrafficRules

namespace Criterion

inductive Kind where
  | userPriority
  | sourceMac
  | destMac
  | vlanId
  | dscp
  | sourceIpv4
  | destIpv4
  | protocol
  | sourcePort
  | destPort
  deriving DecidableEq, Repr

namespace Kind

def all : List Kind :=
  [.userPriority, .sourceMac, .destMac, .vlanId, .dscp, .sourceIpv4, .destIpv4, .protocol, .sourcePort, .destPort]

def flag : Kind → UInt32
  | .userPriority => 0x2
  | .sourceMac => 0x8
  | .destMac => 0x20
  | .vlanId => 0x200000
  | .dscp => 0x800000
  | .sourceIpv4 => 0x80
  | .destIpv4 => 0x800
  | .protocol => 0x80000
  | .sourcePort => 0x8000
  | .destPort => 0x20000

def senseFlag : Kind → UInt32
  | .userPriority => 0x4
  | .sourceMac => 0x10
  | .destMac => 0x40
  | .vlanId => 0x400000
  | .dscp => 0x1000000
  | .sourceIpv4 => 0x100
  | .destIpv4 => 0x1000
  | .protocol => 0x100000
  | .sourcePort => 0x10000
  | .destPort => 0x40000

theorem senseFlag_eq (k : Kind) : k.senseFlag = k.flag <<< 1 := by
  cases k <;> rfl

end Kind

def kind : Criterion → Kind
  | .userPriority _ => .userPriority
  | .sourceMac _ => .sourceMac
  | .destMac _ => .destMac
  | .vlanId _ => .vlanId
  | .dscp _ => .dscp
  | .sourceIpv4 _ => .sourceIpv4
  | .destIpv4 _ => .destIpv4
  | .protocol _ => .protocol
  | .sourcePort _ => .sourcePort
  | .destPort _ => .destPort

end Criterion

/-- The compared values beside a flag word. -/
structure MeshFields where
  userPriority : UInt8 := 0
  srcMac : Mac := .zero
  dstMac : Mac := .zero
  vlanId : UInt16 := 0
  dscp : UInt8 := 0
  srcIpv4 : Option Ipv4 := none
  dstIpv4 : Option Ipv4 := none
  protocol : UInt8 := 0
  srcPort : UInt16 := 0
  dstPort : UInt16 := 0
  deriving DecidableEq, Inhabited, Repr

namespace MeshFields

/-- The criterion of a kind with the recorded value; an address not recorded is 0.0.0.0. -/
def criterion (f : MeshFields) : Criterion.Kind → Criterion
  | .userPriority => .userPriority f.userPriority
  | .sourceMac => .sourceMac f.srcMac
  | .destMac => .destMac f.dstMac
  | .vlanId => .vlanId f.vlanId
  | .dscp => .dscp f.dscp
  | .sourceIpv4 => .sourceIpv4 (f.srcIpv4.getD .unspecified)
  | .destIpv4 => .destIpv4 (f.dstIpv4.getD .unspecified)
  | .protocol => .protocol f.protocol
  | .sourcePort => .sourcePort f.srcPort
  | .destPort => .destPort f.dstPort

def record (f : MeshFields) : Criterion → MeshFields
  | .userPriority v => { f with userPriority := v }
  | .sourceMac v => { f with srcMac := v }
  | .destMac v => { f with dstMac := v }
  | .vlanId v => { f with vlanId := v }
  | .dscp v => { f with dscp := v }
  | .sourceIpv4 v => { f with srcIpv4 := some v }
  | .destIpv4 v => { f with dstIpv4 := some v }
  | .protocol v => { f with protocol := v }
  | .sourcePort v => { f with srcPort := v }
  | .destPort v => { f with dstPort := v }

end MeshFields

namespace MeshMatch

def alwaysFlag : UInt32 := 0x1

def predicateOf? (bits : UInt32) (fields : MeshFields) (k : Criterion.Kind) : Option Predicate :=
  if bits &&& k.flag = 0 then none
  else some ⟨fields.criterion k, if bits &&& k.senseFlag = 0 then .positive else .negative⟩

def ofFlags (bits : UInt32) (fields : MeshFields) : MeshMatch where
  always := bits &&& alwaysFlag != 0
  predicates := Criterion.Kind.all.filterMap (predicateOf? bits fields)

/-- One more predicate recorded in a word and its values. -/
def recordFlag (acc : UInt32 × MeshFields) (p : Predicate) : UInt32 × MeshFields :=
  let k := p.criterion.kind
  (acc.1 ||| k.flag ||| (if p.sense = .negative then k.senseFlag else 0), acc.2.record p.criterion)

def toFlags (m : MeshMatch) : UInt32 × MeshFields :=
  m.predicates.foldl recordFlag (if m.always then alwaysFlag else 0, {})

end MeshMatch
end TrafficRules
