import Mathlib.Data.List.Forall2
import TrafficRules.Address.Mac
import TrafficRules.Proofs.Text.Digits
/-!
# Spelling — the texts that are hardware addresses

A text is cut at its separators, and it is an address exactly if each of six stretches is an octet
(`Mac.ofChars_eq_ok_iff`).  An octet is spelt by two hexadecimal digits, and also by a plus sign and one digit
(`Mac.octet?_eq_some_iff`); in a text without a plus sign that leaves the six pairs of digits of the usual notation and
nothing else.  A respelling, of separators by each other and of digits in the other case, says the same address.
-/
namespace TrafficRules

namespace Digits

def lowercase : List Char := "0123456789abcdef".toList

def uppercase : List Char := "0123456789ABCDEF".toList

/-- The character is the hexadecimal digit of a value, in either case. -/
def Spells (c : Char) (d : Nat) : Prop := lowercase[d]? = some c ∨ uppercase[d]? = some c

instance (c : Char) (d : Nat) : Decidable (Spells c d) := inferInstanceAs (Decidable (_ ∨ _))

theorem Spells.lt {c : Char} {d : Nat} (h : Spells c d) : d < 16 := by
  rcases h with h | h <;> exact (List.getElem?_eq_some_iff.1 h).1

theorem toNat_le_of_value? {c : Char} {d : Nat} (h : value? 16 c = some d) : c.toNat ≤ 102 := by
  have hle : ∀ {a b : Char}, a ≤ b → a.toNat ≤ b.toNat := fun h => UInt32.le_iff_toNat_le.1 (Char.le_def.1 h)
  unfold value? at h
  dsimp only at h
  split at h
  · rename_i hc
    exact Nat.le_trans (hle hc.2) (by decide)
  split at h
  · rename_i hc
    exact hle hc.2
  split at h
  · rename_i hc
    exact Nat.le_trans (hle hc.2) (by decide)
  · cases h

/-- **The digits there are**: what is read as one is one of two times sixteen characters. -/
theorem value?_eq_some_iff {c : Char} {d : Nat} : value? 16 c = some d ↔ Spells c d := by
  constructor
  · intro h
    have hcode : ∀ n < 103, ∀ d ∈ value? 16 (Char.ofNat n), Spells (Char.ofNat n) d := by decide +kernel
    rw [← Char.ofNat_toNat c] at h ⊢
    exact hcode _ (Nat.lt_succ_of_le (toNat_le_of_value? (by rwa [Char.ofNat_toNat] at h))) d h
  · intro h
    have hread : ∀ digits ∈ [lowercase, uppercase], ∀ d < 16, digits[d]?.bind (value? 16) = some d := by decide
    have hlt := h.lt
    rcases h with hc | hc
    · have hd := hread lowercase (.head _) d hlt
      rwa [hc] at hd
    · have hd := hread uppercase (.tail _ (.head _)) d hlt
      rwa [hc] at hd

end Digits

namespace Mac

open Digits (Spells value?_eq_some_iff)

/-! ## Stretches between separators -/

theorem parts_of_no_separator : ∀ {p : List Char}, (∀ c ∈ p, isSeparator c = false) → parts p = [p]
  | [], _ => rfl
  | c :: p, h => by
    obtain ⟨hc, hp⟩ := List.forall_mem_cons.1 h
    rw [parts, hc, parts_of_no_separator hp]
    rfl

theorem parts_append_separator {sep : Char} (hsep : isSeparator sep = true) (cs : List Char) :
    ∀ {p : List Char}, (∀ c ∈ p, isSeparator c = false) → parts (p ++ sep :: cs) = p :: parts cs
  | [], _ => by rw [List.nil_append, parts, if_pos hsep]
  | c :: p, h => by
    obtain ⟨hc, hp⟩ := List.forall_mem_cons.1 h
    rw [List.cons_append, parts, hc, parts_append_separator hsep cs hp]
    rfl

/-- A text has no separator, or a first one. -/
theorem parts_cases : ∀ cs : List Char, (∀ c ∈ cs, isSeparator c = false) ∨
    ∃ p sep rest, cs = p ++ sep :: rest ∧ isSeparator sep = true ∧ ∀ c ∈ p, isSeparator c = false
  | [] => Or.inl fun _ h => by cases h
  | c :: cs => by
    cases hc : isSeparator c with
    | true => exact Or.inr ⟨[], c, cs, rfl, hc, fun _ h => by cases h⟩
    | false =>
      rcases parts_cases cs with hcs | ⟨p, sep, rest, rfl, hsep, hp⟩
      · exact Or.inl (List.forall_mem_cons.2 ⟨hc, hcs⟩)
      · exact Or.inr ⟨c :: p, sep, rest, rfl, hsep, List.forall_mem_cons.2 ⟨hc, hp⟩⟩

/-- Groups of a kind between single separators, and the octet of each. -/
inductive Grouped (group : List Char → UInt8 → Prop) : List Char → List UInt8 → Prop
  | last {p : List Char} {o : UInt8} : group p o → Grouped group p [o]
  | more {p cs : List Char} {sep : Char} {o : UInt8} {os : List UInt8} : group p o → isSeparator sep = true →
      Grouped group cs os → Grouped group (p ++ sep :: cs) (o :: os)

theorem Grouped.mono {group group' : List Char → UInt8 → Prop} (hsub : ∀ p o, group p o → group' p o) {cs : List Char}
    {os : List UInt8} (h : Grouped group cs os) : Grouped group' cs os := by
  induction h with
  | last hp => exact .last (hsub _ _ hp)
  | more hp hsep _ ih => exact .more (hsub _ _ hp) hsep ih

/-- **Groups without separators are the stretches between separators.** -/
theorem grouped_iff {group : List Char → UInt8 → Prop} (hgroup : ∀ p o, group p o → ∀ c ∈ p, isSeparator c = false)
    {cs : List Char} {os : List UInt8} : Grouped group cs os ↔ List.Forall₂ group (parts cs) os := by
  constructor
  · intro h
    induction h with
    | last hp =>
      rw [parts_of_no_separator (hgroup _ _ hp)]
      exact .cons hp .nil
    | more hp hsep _ ih =>
      rw [parts_append_separator hsep _ (hgroup _ _ hp)]
      exact .cons hp ih
  · intro h
    induction os generalizing cs with
    | nil =>
      rcases parts_cases cs with hcs | ⟨p, sep, rest, rfl, hsep, hp⟩
      · rw [parts_of_no_separator hcs] at h
        cases h
      · rw [parts_append_separator hsep rest hp] at h
        cases h
    | cons o os ih =>
      rcases parts_cases cs with hcs | ⟨p, sep, rest, rfl, hsep, hp⟩
      · rw [parts_of_no_separator hcs] at h
        obtain ⟨ho, hos⟩ := List.forall₂_cons.1 h
        cases hos
        exact .last ho
      · rw [parts_append_separator hsep rest hp] at h
        obtain ⟨ho, hos⟩ := List.forall₂_cons.1 h
        exact .more ho hsep (ih hos)

/-! ## Octets -/

/-- Two hexadecimal digits and the value of them. -/
def IsPair (p : List Char) (o : UInt8) : Prop :=
  ∃ x y h l, p = [x, y] ∧ Spells x h ∧ Spells y l ∧ o.toNat = 16 * h + l

/-- A plus sign, one hexadecimal digit and the value of it. -/
def IsSigned (p : List Char) (o : UInt8) : Prop := ∃ y l, p = ['+', y] ∧ Spells y l ∧ o.toNat = l

theorem value?_of_separator {c : Char} (h : isSeparator c = true) : Digits.value? 16 c = none := by
  have hc : c = ':' ∨ c = '-' := by simpa [isSeparator] using h
  rcases hc with rfl | rfl <;> decide

theorem spells_other {c : Char} {d : Nat} (h : Spells c d) : isSeparator c = false ∧ c ≠ '+' := by
  have hdigit := value?_eq_some_iff.2 h
  refine ⟨Bool.eq_false_iff.2 fun hsep => ?_, ?_⟩
  · rw [value?_of_separator hsep] at hdigit
    cases hdigit
  · rintro rfl
    have hplus : Digits.value? 16 '+' = none := by decide
    rw [hplus] at hdigit
    cases hdigit

theorem octet?_eq_some_iff {p : List Char} {o : UInt8} : octet? p = some o ↔ IsPair p o ∨ IsSigned p o := by
  constructor
  · intro h
    unfold octet? at h
    split at h
    · rename_i x y
      split at h
      · rename_i hx
        obtain ⟨l, hl, rfl⟩ := Option.map_eq_some_iff.1 h
        have hl := value?_eq_some_iff.1 hl
        have hlt : l < 256 := Nat.lt_trans hl.lt (by decide)
        exact Or.inr ⟨y, l, by rw [beq_iff_eq.1 hx], hl, UInt8.toNat_ofNat_of_lt' hlt⟩
      · obtain ⟨a, ha, h⟩ := Option.bind_eq_some_iff.1 h
        obtain ⟨l, hl, rfl⟩ := Option.map_eq_some_iff.1 h
        have ha := value?_eq_some_iff.1 ha
        have hl := value?_eq_some_iff.1 hl
        have hlt : 16 * a + l < 256 := by
          have hhigh := ha.lt
          have hlow := hl.lt
          omega
        exact Or.inl ⟨x, y, a, l, rfl, ha, hl, UInt8.toNat_ofNat_of_lt' hlt⟩
    · cases h
  · rintro (⟨x, y, a, l, rfl, ha, hl, ho⟩ | ⟨y, l, rfl, hl, ho⟩)
    · have hx : ¬(x == '+') = true := by simpa using (spells_other ha).2
      rw [octet?, if_neg hx, value?_eq_some_iff.2 ha, Option.bind_some, value?_eq_some_iff.2 hl, Option.map_some, ← ho,
        UInt8.ofNat_toNat]
    · rw [octet?, if_pos (beq_self_eq_true '+'), value?_eq_some_iff.2 hl, Option.map_some, ← ho, UInt8.ofNat_toNat]

theorem no_separator_of_octet? {p : List Char} {o : UInt8} (h : octet? p = some o) : ∀ c ∈ p, isSeparator c = false := by
  rcases octet?_eq_some_iff.1 h with ⟨x, y, a, l, rfl, ha, hl, -⟩ | ⟨y, l, rfl, hl, -⟩
  · simp [(spells_other ha).1, (spells_other hl).1]
  · simp only [List.forall_mem_cons, (spells_other hl).1]
    simp [isSeparator]

/-! ## Addresses -/

theorem takeOctets_eq_ok_iff : ∀ {os : List UInt8} {ps : List (List Char)},
    takeOctets os.length ps = .ok (os, []) ↔ List.Forall₂ (fun p o => octet? p = some o) ps os
  | [], ps => by
    rw [List.forall₂_nil_right_iff]
    simp [takeOctets]
  | o :: os, [] => by simp [takeOctets]
  | o :: os, p :: ps => by
    rw [List.forall₂_cons, ← takeOctets_eq_ok_iff, List.length_cons, takeOctets]
    cases octet? p with
    | none => simp
    | some o' => rcases takeOctets os.length ps with err | ⟨os', rest⟩ <;> simp [and_assoc]

/-- **An address is read when its stretches are six octets.** -/
theorem ofChars_eq_ok_iff {cs : List Char} {m : Mac} :
    ofChars cs = .ok m ↔ List.Forall₂ (fun p o => octet? p = some o) (parts cs) m.octets := by
  have hlen : m.octets.length = 6 := rfl
  rw [← takeOctets_eq_ok_iff, hlen, ofChars]
  split
  · rename_i h
    rw [h]
    simp
  · rename_i a b c d e f h
    rw [h]
    cases m
    simp [octets]
  · rename_i hother h
    constructor
    · intro hm
      cases hm
    · intro hm
      exact absurd (Except.ok.inj (h.symm.trans hm)) (hother _ _ _ _ _ _)

theorem ofChars_eq_ok_iff_grouped {cs : List Char} {m : Mac} :
    ofChars cs = .ok m ↔ Grouped (fun p o => IsPair p o ∨ IsSigned p o) cs m.octets := by
  rw [grouped_iff fun p o h => no_separator_of_octet? (octet?_eq_some_iff.2 h), ofChars_eq_ok_iff]
  simp only [octet?_eq_some_iff]

theorem IsPair.no_plus {p : List Char} {o : UInt8} (h : IsPair p o) : '+' ∉ p := by
  obtain ⟨x, y, a, l, rfl, hx, hy, -⟩ := h
  simp [(spells_other hx).2.symm, (spells_other hy).2.symm]

theorem Grouped.no_plus {cs : List Char} {os : List UInt8} (h : Grouped IsPair cs os) : '+' ∉ cs := by
  induction h with
  | last hp => exact hp.no_plus
  | more hp hsep _ ih =>
    rw [List.mem_append, List.mem_cons]
    rintro (hmem | rfl | hmem)
    · exact hp.no_plus hmem
    · exact absurd hsep (by decide)
    · exact ih hmem

theorem Grouped.pairs {cs : List Char} {os : List UInt8} (h : Grouped (fun p o => IsPair p o ∨ IsSigned p o) cs os)
    (hplus : '+' ∉ cs) : Grouped IsPair cs os := by
  have hpair : ∀ {p o}, IsPair p o ∨ IsSigned p o → '+' ∉ p → IsPair p o := by
    rintro p o (hp | ⟨y, l, rfl, -⟩) hmem
    · exact hp
    · exact absurd List.mem_cons_self hmem
  induction h with
  | last hp => exact .last (hpair hp hplus)
  | more hp hsep _ ih =>
    rw [List.mem_append, List.mem_cons, not_or, not_or] at hplus
    exact .more (hpair hp hplus.1) hsep (ih hplus.2.2)

/-- **Six octets between separators are an address**, octets spelt by two hexadecimal digits or by a plus sign and one,
and nothing else is.  The texts of six pairs of digits are those among them without a plus sign; whether a text is read
agrees with whether it is six pairs of digits unless the text is read and has a plus sign. -/
theorem addresses_are_six_octets (s : String) :
    (∀ m, parse s = .ok m ↔ Grouped (fun p o => IsPair p o ∨ IsSigned p o) s.toList m.octets) ∧
    (∀ m : Mac, Grouped IsPair s.toList m.octets ↔ parse s = .ok m ∧ '+' ∉ s.toList) ∧
    ((∀ m : Mac, parse s = .ok m ↔ Grouped IsPair s.toList m.octets) ↔ ∀ m, parse s = .ok m → '+' ∉ s.toList) := by
  have hpairs : ∀ m : Mac, Grouped IsPair s.toList m.octets ↔ parse s = .ok m ∧ '+' ∉ s.toList := by
    refine fun m => ⟨fun h => ⟨?_, h.no_plus⟩, fun ⟨h, hplus⟩ => ?_⟩
    · exact ofChars_eq_ok_iff_grouped.2 (h.mono fun _ _ => Or.inl)
    · exact (ofChars_eq_ok_iff_grouped.1 h).pairs hplus
  refine ⟨fun m => ofChars_eq_ok_iff_grouped, hpairs, fun h m hm => ?_, fun h m => ?_⟩
  · exact ((h m).1 hm).no_plus
  · rw [hpairs m]
    exact ⟨fun hm => ⟨hm, h m hm⟩, fun hm => hm.1⟩

/-- A text that is read though one of its groups is no pair of digits. -/
theorem plus_sign_read : parse "+1:00:00:00:00:00" = .ok ⟨1, 0, 0, 0, 0, 0⟩ ∧
    ¬∃ m : Mac, Grouped IsPair "+1:00:00:00:00:00".toList m.octets := by
  refine ⟨by decide +kernel, ?_⟩
  rintro ⟨m, h⟩
  exact h.no_plus (by decide)

/-! ## Respellings -/

/-- The same character, two separators, or one digit in either case. -/
def Alike (c c' : Char) : Prop :=
  c = c' ∨ isSeparator c = true ∧ isSeparator c' = true ∨ ∃ d < 16, Spells c d ∧ Spells c' d

instance (c c' : Char) : Decidable (Alike c c') := inferInstanceAs (Decidable (_ ∨ _ ∨ _))

/-- Texts of one length with characters alike in each place. -/
def Respelt (s t : String) : Prop := List.Forall₂ Alike s.toList t.toList

section Respelling

variable {c c' : Char} (h : Alike c c')
include h

theorem Alike.isSeparator_eq : isSeparator c = isSeparator c' := by
  rcases h with rfl | ⟨hc, hc'⟩ | ⟨d, -, hc, hc'⟩
  · rfl
  · rw [hc, hc']
  · rw [(spells_other hc).1, (spells_other hc').1]

theorem Alike.plus_eq : (c == '+') = (c' == '+') := by
  have hne : ∀ {c : Char}, isSeparator c = true → (c == '+') = false := by
    intro c hc
    refine beq_false_of_ne fun hplus => ?_
    rw [hplus] at hc
    exact absurd hc (by decide)
  rcases h with rfl | ⟨hc, hc'⟩ | ⟨d, -, hc, hc'⟩
  · rfl
  · rw [hne hc, hne hc']
  · rw [beq_false_of_ne (spells_other hc).2, beq_false_of_ne (spells_other hc').2]

theorem Alike.value?_eq : Digits.value? 16 c = Digits.value? 16 c' := by
  rcases h with rfl | ⟨hc, hc'⟩ | ⟨d, -, hc, hc'⟩
  · rfl
  · rw [value?_of_separator hc, value?_of_separator hc']
  · rw [value?_eq_some_iff.2 hc, value?_eq_some_iff.2 hc']

end Respelling

theorem octet?_of_alike {p q : List Char} (h : List.Forall₂ Alike p q) : octet? p = octet? q := by
  rcases h with _ | ⟨hx, _ | ⟨hy, _ | _⟩⟩
  · rfl
  · rfl
  · rw [octet?, octet?, hx.plus_eq, hx.value?_eq, hy.value?_eq]
  · rfl

theorem parts_of_alike {cs ds : List Char} (h : List.Forall₂ Alike cs ds) :
    List.Forall₂ (List.Forall₂ Alike) (parts cs) (parts ds) := by
  induction h with
  | nil => exact .cons .nil .nil
  | cons hc _ ih =>
    rw [parts, parts, hc.isSeparator_eq]
    split
    · exact .cons .nil ih
    · rename_i cs ds _ _
      generalize parts cs = ps at ih ⊢
      generalize parts ds = qs at ih ⊢
      rcases ih with _ | ⟨hp, hps⟩
      · exact .cons (.cons hc .nil) .nil
      · exact .cons (.cons hc hp) hps

theorem ofChars_of_alike {cs ds : List Char} (h : List.Forall₂ Alike cs ds) {m : Mac} (hm : ofChars cs = .ok m) :
    ofChars ds = .ok m := by
  rw [ofChars_eq_ok_iff] at hm ⊢
  have hparts := parts_of_alike h
  generalize m.octets = os at hm ⊢
  generalize parts cs = ps at hm hparts
  generalize parts ds = qs at hparts ⊢
  induction hparts generalizing os with
  | nil => exact hm
  | cons hp _ ih =>
    cases hm with
    | cons ho hos => exact .cons ((octet?_of_alike hp).symm.trans ho) (ih _ hos)

end Mac
end TrafficRules
