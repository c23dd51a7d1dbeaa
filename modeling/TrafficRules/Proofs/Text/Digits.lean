import Mathlib.Data.List.Basic
import TrafficRules.Text.Digits
/-!
# Digits — a number is read as it was written

Written digits are digits of their base, so a run of them ends where something else begins (`span_toDigits`); the number
they make is the one written (`toNat?_toDigits`), and only zero is written with a zero in front (`head_toDigits`).
-/
namespace TrafficRules
namespace Digits

theorem value?_digitChar {base d : Nat} (hb : base ≤ 16) (hd : d < base) : value? base (Nat.digitChar d) = some d := by
  have hlow : ∀ d < 16, ∀ base ≤ 16, d < base → value? base (Nat.digitChar d) = some d := by decide
  exact hlow d (Nat.lt_of_lt_of_le hd hb) base hb hd

theorem char_eq_digitChar {d : Nat} (hd : d < 16) : char d = Nat.digitChar d := by
  have hlow : ∀ d < 16, char d = Nat.digitChar d := by decide
  exact hlow d hd

theorem value?_char {d : Nat} (hd : d < 16) : value? 16 (char d) = some d := by
  rw [char_eq_digitChar hd, value?_digitChar (Nat.le_refl 16) hd]

theorem foldValue_append (base : Nat) : ∀ (ds es : List Char) (acc : Nat),
    foldValue base acc (ds ++ es) = (foldValue base acc ds).bind fun n => foldValue base n es
  | [], _, _ => rfl
  | c :: ds, es, acc => by
    rw [List.cons_append, foldValue, foldValue]
    cases value? base c with
    | none => rfl
    | some d => exact foldValue_append base ds es (acc * base + d)

/-- Nothing follows that would go on with the digits. -/
def NoDigit (base : Nat) (rest : List Char) : Prop := ∀ c ∈ rest.head?, isDigit base c = false

section Written

variable {base : Nat} (h : 1 < base) (hb : base ≤ 16)
include h

/-- The digits of a number but the last are those of a smaller one. -/
theorem toDigits_induct {P : Nat → List Char → Prop} (hone : ∀ d < base, P d [Nat.digitChar d])
    (hmore : ∀ n, base ≤ n → P (n / base) (Nat.toDigits base (n / base)) →
      P n (Nat.toDigits base (n / base) ++ [Nat.digitChar (n % base)])) (n : Nat) : P n (Nat.toDigits base n) := by
  induction n using Nat.strongRecOn with
  | ind n ih =>
    by_cases hn : n < base
    · rw [Nat.toDigits_of_lt_base hn]
      exact hone n hn
    · have hle : base ≤ n := Nat.le_of_not_lt hn
      have hpos : 0 < n := Nat.lt_of_lt_of_le (Nat.zero_lt_of_lt h) hle
      rw [Nat.toDigits_of_base_le h hle]
      exact hmore n hle (ih _ (Nat.div_lt_self hpos h))

theorem mem_toDigits (n : Nat) : ∀ c ∈ Nat.toDigits base n, ∃ d < base, c = Nat.digitChar d := by
  refine toDigits_induct h (P := fun _ ds => ∀ c ∈ ds, ∃ d < base, c = Nat.digitChar d) (fun d hd c hc => ?_)
    (fun n _ ih c hc => ?_) n
  · exact ⟨d, hd, List.mem_singleton.1 hc⟩
  · rcases List.mem_append.1 hc with hc | hc
    · exact ih c hc
    · exact ⟨_, Nat.mod_lt n (Nat.zero_lt_of_lt h), List.mem_singleton.1 hc⟩

/-- **Only zero is written with a zero in front.** -/
theorem head_toDigits (n : Nat) : (Nat.toDigits base n).head? = some '0' → n = 0 := by
  refine toDigits_induct h (P := fun n ds => ds.head? = some '0' → n = 0) (fun d _ hd => ?_) (fun n hn ih hd => ?_) n
  · exact Nat.digitChar_eq_zero.1 (Option.some.inj hd)
  · rw [List.head?_append_of_ne_nil _ Nat.toDigits_ne_nil] at hd
    have hzero := ih hd
    have hpos := Nat.div_pos hn (Nat.zero_lt_of_lt h)
    omega

include hb

theorem isDigit_of_mem {n : Nat} {c : Char} (hc : c ∈ Nat.toDigits base n) : isDigit base c = true := by
  obtain ⟨d, hd, rfl⟩ := mem_toDigits h n c hc
  rw [isDigit, value?_digitChar hb hd]
  rfl

theorem span_toDigits (n : Nat) {rest : List Char} (hr : NoDigit base rest) :
    span base (Nat.toDigits base n ++ rest) = (Nat.toDigits base n, rest) := by
  have hall : ∀ c ∈ Nat.toDigits base n, isDigit base c = true := fun c hc => isDigit_of_mem h hb hc
  have hstop : rest.takeWhile (isDigit base) = [] ∧ rest.dropWhile (isDigit base) = rest := by
    cases rest with
    | nil => exact ⟨rfl, rfl⟩
    | cons c cs =>
      have hc : isDigit base c = false := hr c rfl
      simp [hc]
  rw [span, List.takeWhile_append_of_pos hall, List.dropWhile_append_of_pos hall, hstop.1, hstop.2, List.append_nil]

/-- **A number is read back from its digits.** -/
theorem toNat?_toDigits (n : Nat) : toNat? base (Nat.toDigits base n) = some n := by
  have hvalue : foldValue base 0 (Nat.toDigits base n) = some n := by
    refine toDigits_induct h (P := fun n ds => foldValue base 0 ds = some n) (fun d hd => ?_) (fun n _ ih => ?_) n
    · rw [foldValue, value?_digitChar hb hd]
      simp [foldValue]
    · have hlast := value?_digitChar hb (Nat.mod_lt n (Nat.zero_lt_of_lt h))
      rw [foldValue_append, ih, Option.bind_some, foldValue, hlast, Option.bind_some, foldValue, Nat.mul_comm,
        Nat.div_add_mod]
  cases hds : Nat.toDigits base n with
  | nil => exact absurd hds Nat.toDigits_ne_nil
  | cons c cs =>
    rw [toNat?, ← hds]
    · exact hvalue
    · exact fun hnil => nomatch hnil

end Written

end Digits
end TrafficRules
