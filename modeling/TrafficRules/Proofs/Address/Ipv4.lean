import Mathlib.Algebra.GroupWithZero.Nat
import TrafficRules.Address.Ipv4
import TrafficRules.Proofs.Text.Digits
/-!
# Ipv4 — an IPv4 address is read as it was written
-/
namespace TrafficRules
namespace Ipv4

theorem toNat_or_below {x y : UInt32} {m q n : Nat} (k : Nat) (hx : x.toNat = m) (hm : m = q * 2 ^ k) (hy : y.toNat = n)
    (hn : n < 2 ^ k) : (x ||| y).toNat = m + n := by
  rw [UInt32.toNat_or, hx, hm, hy, ← Nat.shiftLeft_eq, ← Nat.shiftLeft_add_eq_or_of_lt hn]

theorem toNat_shifted_octet (o : UInt8) {k : UInt32} {n : Nat} (hk : k.toNat = n) (hn : n ≤ 24) :
    (o.toUInt32 <<< k).toNat = o.toNat * 2 ^ n := by
  have ho : o.toNat * 2 ^ n < 2 ^ 8 * 2 ^ 24 :=
    Nat.mul_lt_mul_of_lt_of_le o.toNat_lt (Nat.pow_le_pow_right (by decide) hn) (by decide)
  have hmod : n % 32 = n := Nat.mod_eq_of_lt (by omega)
  rw [UInt32.toNat_shiftLeft, UInt8.toNat_toUInt32, hk, hmod, Nat.shiftLeft_eq]
  exact Nat.mod_eq_of_lt ho

theorem toNat_ofOctets (a b c d : UInt8) :
    (ofOctets a b c d).bits.toNat = a.toNat * 2 ^ 24 + b.toNat * 2 ^ 16 + c.toNat * 2 ^ 8 + d.toNat := by
  have hb := b.toNat_lt
  have hc := c.toNat_lt
  have h24 := toNat_shifted_octet a (k := 24) (n := 24) rfl (by decide)
  have h16 := toNat_or_below 24 h24 rfl (toNat_shifted_octet b (k := 16) (n := 16) rfl (by decide)) (by omega)
  have h8 := toNat_or_below (q := a.toNat * 2 ^ 8 + b.toNat) 16 h16 (by omega)
    (toNat_shifted_octet c (k := 8) (n := 8) rfl (by decide)) (by omega)
  exact toNat_or_below (q := a.toNat * 2 ^ 16 + b.toNat * 2 ^ 8 + c.toNat) 8 h8 (by omega) (UInt8.toNat_toUInt32 d)
    d.toNat_lt

theorem ofOctets_octets (ip : Ipv4) : ofOctets (ip.octet 0) (ip.octet 1) (ip.octet 2) (ip.octet 3) = ip := by
  have hbits : (ofOctets (ip.octet 0) (ip.octet 1) (ip.octet 2) (ip.octet 3)).bits = ip.bits := by
    have hlt := ip.bits.toNat_lt
    apply UInt32.toNat_inj.1
    rw [toNat_ofOctets]
    simp only [octet, UInt32.toNat_toUInt8, UInt32.toNat_shiftRight, Nat.shiftRight_eq_div_pow, UInt32.reduceMul,
      UInt32.reduceSub, UInt32.reduceToNat, Nat.reduceMod, Nat.reducePow]
    omega
  exact congrArg Ipv4.mk hbits

/-! ## As text -/

theorem readOctet_decimal (o : UInt8) {rest : List Char} (hr : Digits.NoDigit 10 rest) :
    readOctet (Nat.toDigits 10 o.toNat ++ rest) = some (o, rest) := by
  have hlen : (Nat.toDigits 10 o.toNat).length ≤ 3 := by
    rw [Nat.length_toDigits_le_iff (by decide) (by decide)]
    exact Nat.lt_of_lt_of_le o.toNat_lt (by decide)
  have hzero : ¬(1 < (Nat.toDigits 10 o.toNat).length ∧ (Nat.toDigits 10 o.toNat).head? = some '0') := by
    rintro ⟨hlong, hz⟩
    rw [Digits.head_toDigits (by decide) _ hz] at hlong
    exact absurd hlong (by decide)
  unfold readOctet
  rw [Digits.span_toDigits (by decide) (by decide) _ hr]
  dsimp only
  rw [if_pos ⟨hlen, hzero⟩, Digits.toNat?_toDigits (by decide) (by decide), Option.bind_some, if_pos o.toNat_lt,
    UInt8.ofNat_toNat]

theorem noDigit_dot (cs : List Char) : Digits.NoDigit 10 ('.' :: cs) := by
  intro c hc
  cases hc
  rfl

/-- An address is read from the front of a text that goes on with no digit. -/
theorem read_render (ip : Ipv4) {rest : List Char} (hr : Digits.NoDigit 10 rest) :
    read (ip.render.toList ++ rest) = some (ip, rest) := by
  have hchars : ip.render.toList = Nat.toDigits 10 (ip.octet 0).toNat ++ '.' :: (Nat.toDigits 10 (ip.octet 1).toNat ++
      '.' :: (Nat.toDigits 10 (ip.octet 2).toNat ++ '.' :: Nat.toDigits 10 (ip.octet 3).toNat)) := by
    simp [render, octets, Digits.decimal]
  have hskip : ∀ cs, skip '.' ('.' :: cs) = some cs := fun cs => rfl
  have hdot := noDigit_dot
  rw [hchars]
  unfold read
  simp only [List.append_assoc, List.cons_append, readOctet_decimal _ (hdot _), readOctet_decimal _ hr, hskip,
    ofOctets_octets, Option.bind_eq_bind, Option.bind_some]

/-- Digits without a point behind them are no address. -/
theorem read_of_no_point {cs : List Char} (h : (cs.dropWhile (Digits.isDigit 10)).head? ≠ some '.') :
    read cs = none := by
  have hskip : ∀ rest : List Char, rest.head? ≠ some '.' → skip '.' rest = none := by
    intro rest hr
    cases rest with
    | nil => rfl
    | cons c cs =>
      have hc : (c == '.') = false := beq_eq_false_iff_ne.2 fun he => hr (congrArg some he)
      rw [skip, hc]
      rfl
  cases ho : readOctet cs with
  | none =>
    rw [read, ho]
    rfl
  | some p =>
    have hrest : p.2 = cs.dropWhile (Digits.isDigit 10) := by
      unfold readOctet at ho
      dsimp only [Digits.span] at ho
      split at ho
      · obtain ⟨n, -, hn⟩ := Option.bind_eq_some_iff.1 ho
        split at hn
        · rw [← Option.some.inj hn]
        · cases hn
      · cases ho
    rw [read, ho]
    simp only [Option.bind_eq_bind, Option.bind_some, hskip p.2 (hrest ▸ h), Option.bind_none]

/-- **An IPv4 address is read back.** -/
theorem parse?_render (ip : Ipv4) : parse? ip.render = some ip := by
  have hread : read (ip.render.toList ++ []) = some (ip, []) := read_render ip fun c hc => nomatch hc
  rw [List.append_nil] at hread
  unfold parse?
  rw [hread]

end Ipv4
end TrafficRules
