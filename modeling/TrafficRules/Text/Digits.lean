/-!
# Digits — numbers as text

Digits of bases up to sixteen, read in either case and written in lowercase, and the two number forms every other text
of the library is made of: plain decimal and two-digit hexadecimal octets.  ASCII digits only: no other digit is
accepted anywhere, and a text without a digit is no number.  Names are compared up to the case of ASCII letters
(`sameIgnoringCase`).
-/
namespace TrafficRules
namespace Digits

/-- The value of a digit below `base`, in either case. -/
def value? (base : Nat) (c : Char) : Option Nat :=
  let v := if '0' ≤ c ∧ c ≤ '9' then c.toNat - 48
    else if 'a' ≤ c ∧ c ≤ 'f' then c.toNat - 87
    else if 'A' ≤ c ∧ c ≤ 'F' then c.toNat - 55
    else base
  if v < base then some v else none

def char (d : Nat) : Char := if d < 10 then Char.ofNat (48 + d) else Char.ofNat (87 + d)

def isDigit (base : Nat) (c : Char) : Bool := (value? base c).isSome

/-- The number written by a run of digits, most significant first, on top of `acc`. -/
def foldValue (base : Nat) : Nat → List Char → Option Nat
  | acc, [] => some acc
  | acc, c :: cs => (value? base c).bind fun d => foldValue base (acc * base + d) cs

def toNat? (base : Nat) : List Char → Option Nat
  | [] => none
  | cs => foldValue base 0 cs

def span (base : Nat) (cs : List Char) : List Char × List Char :=
  (cs.takeWhile (isDigit base), cs.dropWhile (isDigit base))

def decimal (n : Nat) : String := String.ofList (Nat.toDigits 10 n)

def hex (n : Nat) : String := String.ofList (Nat.toDigits 16 n)

def octet (b : UInt8) : List Char := [char (b.toNat / 16), char (b.toNat % 16)]

end Digits

def twoTo (n : Nat) : Nat := Nat.pow 2 n

def tenTo (n : Nat) : Nat := Nat.pow 10 n

def sameIgnoringCase (a b : String) : Bool := a.toList.map Char.toLower == b.toList.map Char.toLower

end TrafficRules
