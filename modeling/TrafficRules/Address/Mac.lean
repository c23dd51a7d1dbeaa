import TrafficRules.Text.Digits
/-!
# Mac — hardware addresses

Six octets.  Written as six lowercase pairs of hexadecimal digits separated by colons, seventeen characters in all; read
with colons or dashes, mixed at will.  A text is read in stretches between separators (`Mac.parts`, one more than there
are separators), of which there have to be six, each an octet; `MacError` says what is wrong with a text and its message
names the stretch and the text.
-/
namespace TrafficRules

structure Mac where
  (a b c d e f : UInt8)
  deriving DecidableEq, Inhabited, Repr

inductive MacError where
  | tooShort
  | badOctet (part : String)
  | tooLong
  deriving DecidableEq, Repr

def MacError.message (s : String) : MacError → String
  | .tooShort => "MAC address too short: " ++ s
  | .badOctet part => "Invalid MAC octet '" ++ part ++ "' in " ++ s
  | .tooLong => "MAC address too long: " ++ s

namespace Mac

def zero : Mac := ⟨0, 0, 0, 0, 0, 0⟩

def octets (m : Mac) : List UInt8 := [m.a, m.b, m.c, m.d, m.e, m.f]

def isZero (m : Mac) : Bool := m == zero

def isSeparator (c : Char) : Bool := c == ':' || c == '-'

def parts : List Char → List (List Char)
  | [] => [[]]
  | c :: cs =>
    if isSeparator c then [] :: parts cs
    else match parts cs with
      | [] => [[c]]
      | p :: ps => (c :: p) :: ps

/-- Two characters: two hexadecimal digits, or a plus sign and one. -/
def octet? : List Char → Option UInt8
  | [x, y] =>
    if x == '+' then (Digits.value? 16 y).map UInt8.ofNat
    else (Digits.value? 16 x).bind fun h => (Digits.value? 16 y).map fun l => UInt8.ofNat (16 * h + l)
  | _ => none

/-- The first `n` octets of the parts, and the parts left over. -/
def takeOctets : Nat → List (List Char) → Except MacError (List UInt8 × List (List Char))
  | 0, ps => .ok ([], ps)
  | _ + 1, [] => .error .tooShort
  | n + 1, p :: ps =>
    match octet? p with
    | none => .error (.badOctet (String.ofList p))
    | some o =>
      match takeOctets n ps with
      | .error e => .error e
      | .ok (os, rest) => .ok (o :: os, rest)

def ofChars (cs : List Char) : Except MacError Mac :=
  match takeOctets 6 (parts cs) with
  | .error e => .error e
  | .ok ([a, b, c, d, e, f], []) => .ok ⟨a, b, c, d, e, f⟩
  | .ok _ => .error .tooLong

def parse (s : String) : Except MacError Mac := ofChars s.toList

def chars (m : Mac) : List Char :=
  Digits.octet m.a ++ ':' :: Digits.octet m.b ++ ':' :: Digits.octet m.c ++ ':' :: Digits.octet m.d
    ++ ':' :: Digits.octet m.e ++ ':' :: Digits.octet m.f

def render (m : Mac) : String := String.ofList m.chars

end Mac
end TrafficRules
