import Mathlib.Data.Nat.Bitwise
import TrafficRules.Mesh.Flags
/-!
# Layout — the bits of a flag word

Bit 0 of a flag word stands for every frame; each kind of criterion has two bits side by side, its flag and its sense.  No
two kinds share a bit, so what one predicate records in a word is read off it whatever the others record beside it.
-/
namespace TrafficRules

/-! ## Words by their bits -/

def HasBit (w : UInt32) (j : Nat) : Prop := w.toNat.testBit j = true

instance (w : UInt32) (j : Nat) : Decidable (HasBit w j) := inferInstanceAs (Decidable (_ = true))

theorem ext_hasBit {v w : UInt32} (h : ∀ j, HasBit v j ↔ HasBit w j) : v = w :=
  UInt32.toNat_inj.1 (Nat.eq_of_testBit_eq fun j => Bool.eq_iff_iff.2 (h j))

@[simp] theorem not_hasBit_zero (j : Nat) : ¬ HasBit 0 j := by
  simp [HasBit]

@[simp] theorem hasBit_or {v w : UInt32} {j : Nat} : HasBit (v ||| w) j ↔ HasBit v j ∨ HasBit w j := by
  simp [HasBit, Nat.testBit_or]

@[simp] theorem hasBit_and {v w : UInt32} {j : Nat} : HasBit (v &&& w) j ↔ HasBit v j ∧ HasBit w j := by
  simp [HasBit, Nat.testBit_and]

theorem hasBit_single {w : UInt32} {i : Nat} (hw : w.toNat = 2 ^ i) {j : Nat} : HasBit w j ↔ j = i := by
  rw [HasBit, hw, Nat.testBit_two_pow, decide_eq_true_eq, eq_comm]

theorem and_ne_zero_iff {v w : UInt32} {i : Nat} (hw : w.toNat = 2 ^ i) : v &&& w ≠ 0 ↔ HasBit v i := by
  constructor
  · intro hne
    by_contra hi
    refine hne (ext_hasBit fun j => ?_)
    rw [hasBit_and, hasBit_single hw]
    refine iff_of_false ?_ (not_hasBit_zero j)
    rintro ⟨hj, rfl⟩
    exact hi hj
  · intro hi hz
    have hbit : HasBit (v &&& w) i := hasBit_and.2 ⟨hi, (hasBit_single hw).2 rfl⟩
    rw [hz] at hbit
    exact not_hasBit_zero i hbit

theorem hasBit_foldl_or {α : Type} (f : α → UInt32) (j : Nat) : ∀ (xs : List α) (w : UInt32),
    HasBit (xs.foldl (fun w x => w ||| f x) w) j ↔ HasBit w j ∨ ∃ x ∈ xs, HasBit (f x) j
  | [], w => by simp
  | x :: xs, w => by
    rw [List.foldl_cons, hasBit_foldl_or f j xs, hasBit_or]
    simp [or_assoc]

/-! ## The bits of a kind -/

namespace Criterion.Kind

/-- The place of the flag; the sense bit is next to it. -/
def place : Kind → Nat
  | .userPriority => 1
  | .sourceMac => 3
  | .destMac => 5
  | .sourceIpv4 => 7
  | .destIpv4 => 11
  | .sourcePort => 15
  | .destPort => 17
  | .protocol => 19
  | .vlanId => 21
  | .dscp => 23

theorem mem_all (k : Kind) : k ∈ all := by
  cases k <;> decide

theorem nodup_all : all.Nodup := by
  decide

theorem toNat_flag (k : Kind) : k.flag.toNat = 2 ^ k.place := by
  cases k <;> rfl

theorem toNat_senseFlag (k : Kind) : k.senseFlag.toNat = 2 ^ (k.place + 1) := by
  cases k <;> rfl

@[simp] theorem place_ne_zero (k : Kind) : k.place ≠ 0 := by
  cases k <;> decide

@[simp] theorem place_inj {k k' : Kind} : k.place = k'.place ↔ k = k' := by
  cases k <;> cases k' <;> decide

@[simp] theorem place_ne_sense (k k' : Kind) : k.place ≠ k'.place + 1 := by
  cases k <;> cases k' <;> decide

@[simp] theorem hasBit_flag {k : Kind} {j : Nat} : HasBit k.flag j ↔ j = k.place := hasBit_single k.toNat_flag

@[simp] theorem hasBit_senseFlag {k : Kind} {j : Nat} : HasBit k.senseFlag j ↔ j = k.place + 1 :=
  hasBit_single k.toNat_senseFlag

end Criterion.Kind

@[simp] theorem hasBit_alwaysFlag {j : Nat} : HasBit MeshMatch.alwaysFlag j ↔ j = 0 :=
  hasBit_single (i := 0) rfl

end TrafficRules
