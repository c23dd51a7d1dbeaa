import TrafficRules.Address.Ipv4
/-!
# Ipv6 — IPv6 addresses

Four 32-bit words, the most significant first, written as eight hexadecimal groups of one to four digits.  The longest run
of at least two zero groups, the first of equals (`Ipv6.longestZeros`), is written `::`; an address that embeds an IPv4
address is written with it (`Ipv6.mapped?`).

The words are also one number of 128 bits, put together and cut apart by shifts: what is cut out of a number that was put
together is what was put in (`Words.ofBits_bits`).
-/
namespace TrafficRules

structure Words where
  (w0 w1 w2 w3 : UInt32)
  deriving DecidableEq, Inhabited, Repr

namespace Words

def zero : Words := ⟨0, 0, 0, 0⟩

def toList (w : Words) : List UInt32 := [w.w0, w.w1, w.w2, w.w3]

def and (a b : Words) : Words := ⟨a.w0 &&& b.w0, a.w1 &&& b.w1, a.w2 &&& b.w2, a.w3 &&& b.w3⟩

def xor (a : Words) : UInt32 := a.w0 ^^^ a.w1 ^^^ a.w2 ^^^ a.w3

def push (acc : BitVec 128) (w : UInt32) : BitVec 128 := acc <<< 32 ||| w.toBitVec.setWidth 128

def bits (w : Words) : BitVec 128 := w.toList.foldl push 0

def low (b : BitVec 128) : UInt32 := ⟨b.setWidth 32⟩

def ofBits (b : BitVec 128) : Words := ⟨low (b >>> 96), low (b >>> 64), low (b >>> 32), low b⟩

theorem low_push (acc : BitVec 128) (w : UInt32) : low (push acc w) = w := by
  refine UInt32.toBitVec_inj.1 (BitVec.eq_of_getLsbD_eq fun i hi => ?_)
  simp [low, push, hi]

theorem low_push_shift (acc : BitVec 128) (w : UInt32) {n : Nat} (hn : n + 64 ≤ 128) :
    low (push acc w >>> (n + 32)) = low (acc >>> n) := by
  refine UInt32.toBitVec_inj.1 (BitVec.eq_of_getLsbD_eq fun i hi => ?_)
  have hlt : n + 32 + i < 128 := by omega
  have habove : ¬ n + 32 + i < 32 := by omega
  have hword : w.toBitVec.getLsbD (n + 32 + i) = false := BitVec.getLsbD_of_ge _ _ (by omega)
  have hdown : n + 32 + i - 32 = n + i := by omega
  have hin : n + i < 128 := by omega
  simp [low, push, hi, hlt, habove, hword, hdown, hin]

@[simp] theorem ofBits_bits (w : Words) : ofBits w.bits = w := by
  obtain ⟨a, b, c, d⟩ := w
  have hlow : ∀ (acc : BitVec 128) (x y : UInt32), low (push (push acc x) y >>> 32) = x := fun acc x y => by
    rw [low_push_shift (n := 0) _ y (by decide), BitVec.ushiftRight_zero, low_push]
  have h0 : low (bits ⟨a, b, c, d⟩ >>> 96) = a :=
    (low_push_shift (n := 64) _ d (by decide)).trans ((low_push_shift (n := 32) _ c (by decide)).trans (hlow _ a b))
  have h1 : low (bits ⟨a, b, c, d⟩ >>> 64) = b := (low_push_shift (n := 32) _ d (by decide)).trans (hlow _ b c)
  have h2 : low (bits ⟨a, b, c, d⟩ >>> 32) = c := hlow _ c d
  have h3 : low (bits ⟨a, b, c, d⟩) = d := low_push _ d
  rw [ofBits, h0, h1, h2, h3]

end Words

structure Ipv6 where
  words : Words
  deriving DecidableEq, Inhabited, Repr

namespace Ipv6

def bits (ip : Ipv6) : BitVec 128 := ip.words.bits

def groupsOf (w : UInt32) : List UInt16 := [(w >>> 16).toUInt16, w.toUInt16]

def wordOf (hi lo : UInt16) : UInt32 := (hi.toUInt32 <<< 16) ||| lo.toUInt32

def groups (ip : Ipv6) : List UInt16 := ip.words.toList.flatMap groupsOf

def ofGroups? : List UInt16 → Option Ipv6
  | [a, b, c, d, e, f, g, h] => some ⟨⟨wordOf a b, wordOf c d, wordOf e f, wordOf g h⟩⟩
  | _ => none

def readGroup (cs : List Char) : Option (UInt16 × List Char) :=
  match Digits.span 16 cs with
  | (ds, rest) => if ds.length ≤ 4 then (Digits.toNat? 16 ds).map fun n => (UInt16.ofNat n, rest) else none

/-- Up to `n` groups separated by colons, a dotted IPv4 address counting as two where two are left; whether one ended
the list; what follows.  A separator with nothing readable behind it is left in place. -/
def readGroups : Nat → Bool → List Char → List UInt16 × Bool × List Char
  | 0, _, cs => ([], false, cs)
  | n + 1, first, cs =>
    match if first then some cs else Ipv4.skip ':' cs with
    | none => ([], false, cs)
    | some body =>
      match if n = 0 then none else Ipv4.read body with
      | some (v4, rest) => (groupsOf v4.bits, true, rest)
      | none =>
        match readGroup body with
        | none => ([], false, cs)
        | some (g, rest) =>
          match readGroups n false rest with
          | (gs, dotted, rest) => (g :: gs, dotted, rest)

def parse? (s : String) : Option Ipv6 :=
  match readGroups 8 true s.toList with
  | (head, dotted, rest) =>
    if head.length = 8 then if rest.isEmpty then ofGroups? head else none
    else if dotted then none
    else match rest with
      | ':' :: ':' :: rest =>
        match readGroups (7 - head.length) true rest with
        | (tail, _, []) => ofGroups? (head ++ List.replicate (8 - head.length - tail.length) 0 ++ tail)
        | _ => none
      | _ => none

def mapped? (ip : Ipv6) : Option Ipv4 :=
  if ip.words.w0 = 0 ∧ ip.words.w1 = 0 ∧ ip.words.w2 = 0xffff then some ⟨ip.words.w3⟩ else none

/-- Where the longest run of zeros starts, and its length; the first of equally long ones. -/
def longestZeros : List UInt16 → Nat × Nat
  | [] => (0, 0)
  | g :: gs =>
    let here := (g :: gs).takeWhile (· == 0) |>.length
    let (start, length) := longestZeros gs
    if length ≤ here then (0, here) else (start + 1, length)

def renderGroups (gs : List UInt16) : String := ":".intercalate (gs.map fun g => Digits.hex g.toNat)

def render (ip : Ipv6) : String :=
  match ip.mapped? with
  | some v4 => "::ffff:" ++ v4.render
  | none =>
    match longestZeros ip.groups with
    | (start, length) =>
      if 1 < length then renderGroups (ip.groups.take start) ++ "::" ++ renderGroups (ip.groups.drop (start + length))
      else renderGroups ip.groups

end Ipv6
end TrafficRules
