import TrafficRules.Text.Digits
/-!
# Ipv4 — IPv4 addresses

A 32-bit word, written as four decimal octets.  An octet is read without leading zeros.  Readers take what they read off
the head of a text and give the rest of it back.
-/
namespace TrafficRules

structure Ipv4 where
  bits : UInt32
  deriving DecidableEq, Inhabited, Repr

namespace Ipv4

def unspecified : Ipv4 := ⟨0⟩

def ofOctets (a b c d : UInt8) : Ipv4 :=
  ⟨(a.toUInt32 <<< 24) ||| (b.toUInt32 <<< 16) ||| (c.toUInt32 <<< 8) ||| d.toUInt32⟩

def octet (ip : Ipv4) (i : UInt32) : UInt8 := (ip.bits >>> (24 - 8 * i)).toUInt8

def octets (ip : Ipv4) : List UInt8 := [ip.octet 0, ip.octet 1, ip.octet 2, ip.octet 3]

/-- A decimal octet at the head of a text: one to three digits, no leading zero, at most 255. -/
def readOctet (cs : List Char) : Option (UInt8 × List Char) :=
  match Digits.span 10 cs with
  | (ds, rest) =>
    if ds.length ≤ 3 ∧ ¬(1 < ds.length ∧ ds.head? = some '0') then
      (Digits.toNat? 10 ds).bind fun n => if n < 256 then some (UInt8.ofNat n, rest) else none
    else none

def skip (c : Char) : List Char → Option (List Char)
  | [] => none
  | x :: xs => if x == c then some xs else none

def read (cs : List Char) : Option (Ipv4 × List Char) := do
  let (a, cs) ← readOctet cs
  let cs ← skip '.' cs
  let (b, cs) ← readOctet cs
  let cs ← skip '.' cs
  let (c, cs) ← readOctet cs
  let cs ← skip '.' cs
  let (d, cs) ← readOctet cs
  some (ofOctets a b c d, cs)

def parse? (s : String) : Option Ipv4 :=
  match read s.toList with
  | some (ip, []) => some ip
  | _ => none

def render (ip : Ipv4) : String := ".".intercalate (ip.octets.map fun o => Digits.decimal o.toNat)

end Ipv4
end TrafficRules
