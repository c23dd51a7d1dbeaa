import TrafficRules.Address.Ipv6
/-!
# Ip — addresses of either version

Both versions are packed into four words (`Ip.words`): an IPv4 address into the first, before zeros, an IPv6 address into
all four.  Words are shown as IPv4 when only the first is in use (`Ip.ofWords`).
-/
namespace TrafficRules

inductive IpVersion where
  | v4
  | v6
  deriving DecidableEq, Repr

namespace IpVersion

def number : IpVersion → UInt8
  | .v4 => 4
  | .v6 => 6

def ofNumber? : UInt8 → Option IpVersion
  | 4 => some .v4
  | 6 => some .v6
  | _ => none

end IpVersion

inductive Ip where
  | v4 (addr : Ipv4)
  | v6 (addr : Ipv6)
  deriving DecidableEq, Repr

namespace Ip

def version : Ip → IpVersion
  | .v4 _ => .v4
  | .v6 _ => .v6

def v4? : Ip → Option Ipv4
  | .v4 a => some a
  | .v6 _ => none

def v6? : Ip → Option Ipv6
  | .v4 _ => none
  | .v6 a => some a

def words : Ip → Words
  | .v4 a => ⟨a.bits, 0, 0, 0⟩
  | .v6 a => .ofBits a.bits

@[simp] theorem words_v6 (a : Ipv6) : (Ip.v6 a).words = a.words := Words.ofBits_bits a.words

def ofWords (w : Words) : Ip := if w.w1 = 0 ∧ w.w2 = 0 ∧ w.w3 = 0 then .v4 ⟨w.w0⟩ else .v6 ⟨.ofBits w.bits⟩

def parse? (s : String) : Option Ip := ((Ipv4.parse? s).map .v4).or ((Ipv6.parse? s).map .v6)

def render : Ip → String
  | .v4 a => a.render
  | .v6 a => a.render

end Ip
end TrafficRules
