import Mathlib.Data.List.Nodup
import TrafficRules.Proofs.Mesh.Conjunction
import TrafficRules.Proofs.Mesh.Recorded
/-!
# RoundTrip — a match to its flags and back

A flag word is read kind by kind, so a match that is read has one predicate of a kind at most, and of such a match nothing
is lost in its flags: it comes back with its predicates in the order of the word.  What a word says beyond the match it
stands for, bits of no kind or the sense of a kind that is not set, is not written again.
-/
namespace TrafficRules

open Criterion (Kind)

/-! ## What is read of a word and its values -/

namespace MeshMatch

def reads (bits : UInt32) (k : Kind) : Bool := bits &&& k.flag != 0

/-- The bits of a word that are read: that of every frame, every flag that is set and the sense beside it. -/
def readMask (bits : UInt32) : UInt32 :=
  (Kind.all.filter (reads bits)).foldl (fun w k => w ||| (k.flag ||| k.senseFlag)) alwaysFlag

end MeshMatch

/-- The values of some kinds, an address that is missing as 0.0.0.0, and defaults for the others. -/
def MeshFields.only (f : MeshFields) (on : Kind → Bool) : MeshFields where
  userPriority := if on .userPriority then f.userPriority else 0
  srcMac := if on .sourceMac then f.srcMac else .zero
  dstMac := if on .destMac then f.dstMac else .zero
  vlanId := if on .vlanId then f.vlanId else 0
  dscp := if on .dscp then f.dscp else 0
  srcIpv4 := if on .sourceIpv4 then some (f.srcIpv4.getD .unspecified) else none
  dstIpv4 := if on .destIpv4 then some (f.dstIpv4.getD .unspecified) else none
  protocol := if on .protocol then f.protocol else 0
  srcPort := if on .sourcePort then f.srcPort else 0
  dstPort := if on .destPort then f.dstPort else 0

theorem MeshFields.slot_only (f : MeshFields) (on : Kind → Bool) (k : Kind) :
    (f.only on).slot k = if on k then some (f.criterion k) else ({} : MeshFields).slot k := by
  cases h : on k <;> cases k <;> simp [slot, only, criterion, h]

namespace MeshMatch

theorem reads_iff {bits : UInt32} {k : Kind} : reads bits k = true ↔ HasBit bits k.place := by
  rw [reads, bne_iff_ne]
  exact and_ne_zero_iff k.toNat_flag

theorem hasBit_readMask {bits : UInt32} {j : Nat} : HasBit (readMask bits) j ↔
    j = 0 ∨ ∃ k : Kind, HasBit bits k.place ∧ (j = k.place ∨ j = k.place + 1) := by
  rw [readMask, hasBit_foldl_or]
  simp [Kind.mem_all, reads_iff]

/-! ## One predicate of a kind -/

def Distinct (m : MeshMatch) : Prop := (m.predicates.map (·.criterion.kind)).Nodup

theorem kind_of_predicateOf? {bits : UInt32} {fields : MeshFields} {k : Kind} {p : Predicate}
    (h : predicateOf? bits fields k = some p) : p.criterion.kind = k := by
  rw [predicateOf?_eq] at h
  split at h
  · cases h
    exact fields.kind_criterion k
  · cases h

theorem mem_ofFlags {bits : UInt32} {fields : MeshFields} {p : Predicate} :
    p ∈ (ofFlags bits fields).predicates ↔ predicateOf? bits fields p.criterion.kind = some p := by
  rw [ofFlags, List.mem_filterMap]
  constructor
  · rintro ⟨k, -, hk⟩
    rwa [kind_of_predicateOf? hk]
  · intro h
    exact ⟨_, Kind.mem_all _, h⟩

/-- **A match that is read** has its kinds once each, in the order of the word. -/
theorem kinds_ofFlags (bits : UInt32) (fields : MeshFields) :
    (ofFlags bits fields).predicates.map (·.criterion.kind) = Kind.all.filter (reads bits) := by
  rw [ofFlags, List.map_filterMap, ← List.filterMap_eq_filter]
  congr 1
  funext k
  rw [predicateOf?_eq]
  by_cases hk : HasBit bits k.place <;> simp [Option.guard, reads_iff, hk]

theorem distinct_ofFlags (bits : UInt32) (fields : MeshFields) : (ofFlags bits fields).Distinct := by
  rw [Distinct, kinds_ofFlags]
  exact Kind.nodup_all.filter _

namespace Distinct

variable {m : MeshMatch} (h : m.Distinct) {k : Kind} {p : Predicate}
include h

theorem lastOf?_eq_some_iff : m.lastOf? k = some p ↔ p ∈ m.predicates ∧ p.criterion.kind = k := by
  refine ⟨mem_of_lastOf?, ?_⟩
  rintro ⟨hp, rfl⟩
  cases hlast : m.lastOf? p.criterion.kind with
  | none => exact absurd rfl (lastOf?_eq_none_iff.1 hlast p hp)
  | some q =>
    obtain ⟨hq, hkind⟩ := mem_of_lastOf? hlast
    rw [List.inj_on_of_nodup_map h hq hp hkind]

theorem merged?_eq : m.merged? k = m.lastOf? k := by
  cases hlast : m.lastOf? k with
  | none =>
    rw [merged?, hlast]
    rfl
  | some p =>
    refine (merged?_eq_last_iff hlast).2 ?_
    rintro ⟨q, hq, hqk, hneg⟩
    rwa [Option.some.inj (hlast.symm.trans (h.lastOf?_eq_some_iff.2 ⟨hq, hqk⟩))]

/-- **A match of distinct kinds comes back with the predicates it had.** -/
theorem perm : (ofFlags m.toFlags.1 m.toFlags.2).predicates.Perm m.predicates := by
  have hback := distinct_ofFlags m.toFlags.1 m.toFlags.2
  refine (List.perm_ext_iff_of_nodup (List.Nodup.of_map _ hback) (List.Nodup.of_map _ h)).2 fun p => ?_
  rw [mem_ofFlags, predicateOf?_toFlags, h.merged?_eq, h.lastOf?_eq_some_iff]
  simp

end Distinct

theorem accepts_of_perm {m m' : MeshMatch} (ha : m.always = m'.always) (hp : m.predicates.Perm m'.predicates) (f : Frame) :
    m.accepts f = m'.accepts f := accepts_congr ha (fun _ => hp.mem_iff) f

/-! ## The flags of what was read from flags -/

variable (bits : UInt32) (fields : MeshFields)

theorem lastOf?_ofFlags (k : Kind) : (ofFlags bits fields).lastOf? k = predicateOf? bits fields k := by
  ext p
  rw [(distinct_ofFlags bits fields).lastOf?_eq_some_iff, mem_ofFlags]
  constructor
  · rintro ⟨hp, rfl⟩
    exact hp
  · intro hp
    have hk := kind_of_predicateOf? hp
    exact ⟨by rwa [hk], hk⟩

/-- **A match read from flags comes back as it was read.** -/
theorem ofFlags_toFlags_ofFlags : let m := ofFlags bits fields
    ofFlags m.toFlags.1 m.toFlags.2 = m := by
  intro m
  rw [ofFlags_toFlags]
  have hpredicates : Kind.all.filterMap m.merged? = m.predicates := by
    congr 1
    funext k
    rw [(distinct_ofFlags bits fields).merged?_eq, lastOf?_ofFlags]
  rw [hpredicates]

theorem exists_mem_ofFlags {P : Kind → Sense → Prop} :
    (∃ p ∈ (ofFlags bits fields).predicates, P p.criterion.kind p.sense) ↔
      ∃ k : Kind, HasBit bits k.place ∧ P k (if HasBit bits (k.place + 1) then .negative else .positive) := by
  constructor
  · rintro ⟨p, hp, hP⟩
    rw [mem_ofFlags, predicateOf?_eq] at hp
    split at hp
    · rename_i hk
      rw [← Option.some.inj hp] at hP
      exact ⟨p.criterion.kind, hk, by simpa using hP⟩
    · cases hp
  · rintro ⟨k, hk, hP⟩
    refine ⟨⟨fields.criterion k, if HasBit bits (k.place + 1) then .negative else .positive⟩, ?_, ?_⟩
    · rw [mem_ofFlags, fields.kind_criterion, predicateOf?_eq, if_pos hk]
    · rwa [fields.kind_criterion]

/-- **The flags of what was read from flags** are the bits and the values that were read. -/
theorem toFlags_ofFlags : (ofFlags bits fields).toFlags = (bits &&& readMask bits, fields.only (reads bits)) := by
  refine Prod.ext (ext_hasBit fun j => ?_) (MeshFields.ext_slot fun k => ?_)
  · rw [hasBit_toFlags, hasBit_and, hasBit_readMask, always_ofFlags,
      exists_mem_ofFlags bits fields (P := fun k s => j = k.place ∨ s = .negative ∧ j = k.place + 1)]
    constructor
    · rintro (⟨h0, rfl⟩ | ⟨k, hk, rfl | ⟨hs, rfl⟩⟩)
      · exact ⟨h0, Or.inl rfl⟩
      · exact ⟨hk, Or.inr ⟨k, hk, Or.inl rfl⟩⟩
      · exact ⟨by simpa using hs, Or.inr ⟨k, hk, Or.inr rfl⟩⟩
    · rintro ⟨hj, rfl | ⟨k, hk, rfl | rfl⟩⟩
      · exact Or.inl ⟨hj, rfl⟩
      · exact Or.inr ⟨k, hk, Or.inl rfl⟩
      · exact Or.inr ⟨k, hk, Or.inr ⟨if_pos hj, rfl⟩⟩
  · rw [slot_toFlags, lastOf?_ofFlags, MeshFields.slot_only, predicateOf?_eq]
    by_cases hk : HasBit bits k.place <;> simp [reads_iff, hk]

/-- **Flags lose nothing that can be read.**  A word and values that were read are written again as the bits and the values
that were read, and read the same.  A match of distinct kinds comes back as it was but for the order of its predicates,
which no frame can tell. -/
theorem flags_lossless :
    (∀ bits fields, let m := ofFlags bits fields
      m.toFlags = (bits &&& readMask bits, fields.only (reads bits)) ∧ ofFlags m.toFlags.1 m.toFlags.2 = m) ∧
    ∀ m : MeshMatch, m.Distinct → let m' := ofFlags m.toFlags.1 m.toFlags.2
      m'.always = m.always ∧ m'.predicates.Perm m.predicates ∧ ∀ f, m'.accepts f = m.accepts f := by
  refine ⟨fun bits fields => ⟨toFlags_ofFlags bits fields, ofFlags_toFlags_ofFlags bits fields⟩, fun m hm => ?_⟩
  intro m'
  have halways : m'.always = m.always := by
    show (ofFlags m.toFlags.1 m.toFlags.2).always = m.always
    rw [ofFlags_toFlags]
  exact ⟨halways, hm.perm, accepts_of_perm halways hm.perm⟩

/-- Two kinds against the order of the word. -/
def backwards : MeshMatch := ⟨false, [⟨.destPort 443, .negative⟩, ⟨.userPriority 3, .positive⟩]⟩

/-- Of the word `0x80000092` the highest bit is of no kind and the sense bit `0x10` of a kind that is not set. -/
theorem flags_lossless_untidy :
    (ofFlags 0x80000092 { userPriority := 5, dscp := 46 }).toFlags =
      (0x82, { userPriority := 5, srcIpv4 := some .unspecified }) ∧
    backwards.Distinct ∧ (ofFlags backwards.toFlags.1 backwards.toFlags.2).predicates ≠ backwards.predicates ∧
    (ofFlags backwards.toFlags.1 backwards.toFlags.2).predicates.Perm backwards.predicates ∧
    ∀ f, (ofFlags backwards.toFlags.1 backwards.toFlags.2).accepts f = backwards.accepts f := by
  have hd : backwards.Distinct := by unfold Distinct; decide
  obtain ⟨hwords, hmatches⟩ := flags_lossless
  obtain ⟨-, hperm, haccepts⟩ := hmatches backwards hd
  exact ⟨(hwords 0x80000092 { userPriority := 5, dscp := 46 }).1.trans (by decide +kernel), hd, by decide +kernel, hperm,
    haccepts⟩

end MeshMatch
end TrafficRules
