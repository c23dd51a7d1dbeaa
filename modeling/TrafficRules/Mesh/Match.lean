import TrafficRules.Frame
/-!
# Match — raw-frame matching for mesh rules

A match is a conjunction of predicates, each a criterion with a polarity.  A criterion is compared only with a frame
that carries the field it names; on any other frame neither polarity holds.  A frame that is not IPv4 is turned away at once
when any predicate asks for a field of an IPv4 header.  `MeshMatch.everything` is the match that every frame meets, and
`MeshMatch.require` puts one more predicate in last place.
-/
namespace TrafficRules

inductive Sense where
  | positive
  | negative
  deriving DecidableEq, Inhabited, Repr

namespace Sense

def all : List Sense := [.positive, .negative]

def name : Sense → String
  | .positive => "positive"
  | .negative => "negative"

def ofName? (s : String) : Option Sense := all.find? (·.name == s)

def apply : Sense → Bool → Bool
  | .positive, b => b
  | .negative, b => !b

end Sense

inductive Criterion where
  | userPriority (value : UInt8)
  | sourceMac (value : Mac)
  | destMac (value : Mac)
  | vlanId (value : UInt16)
  | dscp (value : UInt8)
  | sourceIpv4 (value : Ipv4)
  | destIpv4 (value : Ipv4)
  | protocol (value : UInt8)
  | sourcePort (value : UInt16)
  | destPort (value : UInt16)
  deriving DecidableEq, Repr

namespace Criterion

def needsIpv4 : Criterion → Bool
  | .dscp _ | .sourceIpv4 _ | .destIpv4 _ | .protocol _ | .sourcePort _ | .destPort _ => true
  | _ => false

/-- Whether the frame's field has the wanted value; nothing when the frame has no such field.  The VLAN criterion
is compared with the whole tag. -/
def compare : Criterion → Frame → Option Bool
  | .userPriority v, f => some (f.priority == v)
  | .sourceMac v, f => some (f.srcMac == v)
  | .destMac v, f => some (f.dstMac == v)
  | .vlanId v, f => f.vlanTci.map (· == v)
  | .dscp v, f => f.ipv4?.map (DsField.dscp ·.dsField == v)
  | .sourceIpv4 v, f => f.ipv4?.map (·.src == v)
  | .destIpv4 v, f => f.ipv4?.map (·.dst == v)
  | .protocol v, f => f.ipv4?.map (·.protocol == v)
  | .sourcePort v, f => f.ipv4?.map (·.ports.1 == v)
  | .destPort v, f => f.ipv4?.map (·.ports.2 == v)

def render : Criterion → String
  | .userPriority v => s!"up={v}"
  | .sourceMac v => "smac=" ++ v.render
  | .destMac v => "dmac=" ++ v.render
  | .vlanId v => s!"vlan={v}"
  | .dscp v => s!"dscp={v}"
  | .sourceIpv4 v => "sip=" ++ v.render
  | .destIpv4 v => "dip=" ++ v.render
  | .protocol v => s!"proto={v}"
  | .sourcePort v => s!"sport={v}"
  | .destPort v => s!"dport={v}"

end Criterion

structure Predicate where
  criterion : Criterion
  sense : Sense := .positive
  deriving DecidableEq, Repr

namespace Predicate

def accepts (p : Predicate) (f : Frame) : Bool := (p.criterion.compare f).any p.sense.apply

def render (p : Predicate) : String :=
  match p.sense with
  | .positive => p.criterion.render
  | .negative => "!" ++ p.criterion.render

end Predicate

structure MeshMatch where
  always : Bool := false
  predicates : List Predicate := []
  deriving DecidableEq, Inhabited, Repr

namespace MeshMatch

def everything : MeshMatch := ⟨true, []⟩

def require (m : MeshMatch) (c : Criterion) (s : Sense) : MeshMatch :=
  { m with predicates := m.predicates ++ [⟨c, s⟩] }

def accepts (m : MeshMatch) (f : Frame) : Bool :=
  m.always ||
    (!(f.ipv4?.isNone && m.predicates.any (·.criterion.needsIpv4)) && m.predicates.all (·.accepts f))

def render (m : MeshMatch) : String :=
  if m.always then "always"
  else if m.predicates.isEmpty then "any"
  else " && ".intercalate (m.predicates.map (·.render))

end MeshMatch
end TrafficRules
