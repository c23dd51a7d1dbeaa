import TrafficRules.Proofs.Mesh.Layout
/-!
# Recorded — what a flag word and its values keep of a match

The word is the union of what each predicate sets in it, while a value takes the place of the one recorded before it.  So a
match read back from its flags has one predicate of each kind it had any of: with the value of the last of them, and
negative as soon as one of them was (`ofFlags_toFlags`).  Of several predicates of a kind the last comes back, unless it is
positive and another is not (`repeated_kind_read_back`).
-/
namespace TrafficRules

open Criterion (Kind)

/-! ## Values by kind -/

namespace MeshFields

/-- The criterion recorded of a kind; an address may be missing. -/
def slot (f : MeshFields) : Kind → Option Criterion
  | .sourceIpv4 => f.srcIpv4.map .sourceIpv4
  | .destIpv4 => f.dstIpv4.map .destIpv4
  | k => some (f.criterion k)

@[simp] theorem kind_criterion (f : MeshFields) (k : Kind) : (f.criterion k).kind = k := by
  cases k <;> rfl

theorem slot_record (f : MeshFields) (c : Criterion) (k : Kind) :
    (f.record c).slot k = if c.kind = k then some c else f.slot k := by
  cases c <;> cases k <;> rfl

theorem criterion_of_slot {f : MeshFields} {k : Kind} {c : Criterion} (h : f.slot k = some c) : f.criterion k = c := by
  cases k with
  | sourceIpv4 | destIpv4 =>
    obtain ⟨a, ha, rfl⟩ := Option.map_eq_some_iff.1 h
    simp [criterion, ha]
  | _ => exact Option.some.inj h

theorem ext_slot {f g : MeshFields} (h : ∀ k, f.slot k = g.slot k) : f = g := by
  obtain ⟨up, smac, dmac, vlan, dscp, sip, dip, proto, sport, dport⟩ := f
  have hup := h .userPriority
  have hsmac := h .sourceMac
  have hdmac := h .destMac
  have hvlan := h .vlanId
  have hdscp := h .dscp
  -- an address may be missing, so its slots are equal under `Option.map` only
  have hsip : sip = g.srcIpv4 := Option.map_injective (fun _ _ => Criterion.sourceIpv4.inj) (h .sourceIpv4)
  have hdip : dip = g.dstIpv4 := Option.map_injective (fun _ _ => Criterion.destIpv4.inj) (h .destIpv4)
  have hproto := h .protocol
  have hsport := h .sourcePort
  have hdport := h .destPort
  simp only [slot, criterion, Option.some.injEq, Criterion.userPriority.injEq, Criterion.sourceMac.injEq,
    Criterion.destMac.injEq, Criterion.vlanId.injEq, Criterion.dscp.injEq, Criterion.protocol.injEq,
    Criterion.sourcePort.injEq, Criterion.destPort.injEq] at hup hsmac hdmac hvlan hdscp hproto hsport hdport
  subst hup hsmac hdmac hvlan hdscp hsip hdip hproto hsport hdport
  rfl

theorem slot_foldl_record (k : Kind) : ∀ (ps : List Predicate) (f : MeshFields),
    (ps.foldl (fun f p => f.record p.criterion) f).slot k =
      ((ps.reverse.find? (·.criterion.kind = k)).map (·.criterion)).or (f.slot k)
  | [], _ => rfl
  | p :: ps, f => by
    rw [List.foldl_cons, slot_foldl_record k ps, slot_record, List.reverse_cons, List.find?_append, List.find?_singleton]
    cases ps.reverse.find? (·.criterion.kind = k) with
    | some q => rfl
    | none =>
      -- no later predicate is of the kind, so this one is its last if it is of the kind
      by_cases hk : p.criterion.kind = k <;> simp [hk]

end MeshFields

/-! ## Bits by predicate -/

/-- What a predicate sets in a flag word. -/
def Predicate.word (p : Predicate) : UInt32 :=
  p.criterion.kind.flag ||| if p.sense = .negative then p.criterion.kind.senseFlag else 0

@[simp] theorem Predicate.hasBit_word {p : Predicate} {j : Nat} : HasBit p.word j ↔
    j = p.criterion.kind.place ∨ p.sense = .negative ∧ j = p.criterion.kind.place + 1 := by
  unfold word
  by_cases h : p.sense = .negative <;> simp [h]

theorem Sense.eq_negative_iff {s : Sense} : s = .negative ↔ s ≠ .positive := by
  cases s <;> decide

namespace MeshMatch

theorem foldl_recordFlag : ∀ (ps : List Predicate) (acc : UInt32 × MeshFields), ps.foldl recordFlag acc =
    (ps.foldl (fun w p => w ||| p.word) acc.1, ps.foldl (fun f p => f.record p.criterion) acc.2)
  | [], _ => rfl
  | p :: ps, acc => by
    rw [List.foldl_cons, foldl_recordFlag ps, List.foldl_cons, List.foldl_cons, recordFlag, Predicate.word, UInt32.or_assoc]

/-- The last predicate of a kind. -/
def lastOf? (m : MeshMatch) (k : Kind) : Option Predicate := m.predicates.reverse.find? (·.criterion.kind = k)

def Denies (m : MeshMatch) (k : Kind) : Prop := ∃ p ∈ m.predicates, p.criterion.kind = k ∧ p.sense = .negative

instance (m : MeshMatch) (k : Kind) : Decidable (m.Denies k) :=
  inferInstanceAs (Decidable (∃ p ∈ m.predicates, p.criterion.kind = k ∧ p.sense = .negative))

/-- What comes back of a kind: the last value, in the sense of all its predicates together. -/
def merged? (m : MeshMatch) (k : Kind) : Option Predicate :=
  (m.lastOf? k).map fun p => ⟨p.criterion, if m.Denies k then .negative else .positive⟩

theorem lastOf?_eq_none_iff {m : MeshMatch} {k : Kind} :
    m.lastOf? k = none ↔ ∀ p ∈ m.predicates, p.criterion.kind ≠ k := by
  simp [lastOf?]

theorem mem_of_lastOf? {m : MeshMatch} {k : Kind} {p : Predicate} (h : m.lastOf? k = some p) :
    p ∈ m.predicates ∧ p.criterion.kind = k := by
  refine ⟨List.mem_reverse.1 (List.mem_of_find?_eq_some h), ?_⟩
  simpa using List.find?_some h

/-! ## The flags of a match -/

variable (m : MeshMatch) (k : Kind)

theorem hasBit_toFlags {j : Nat} : HasBit m.toFlags.1 j ↔ (m.always = true ∧ j = 0) ∨
    ∃ p ∈ m.predicates, j = p.criterion.kind.place ∨ p.sense = .negative ∧ j = p.criterion.kind.place + 1 := by
  rw [toFlags, foldl_recordFlag, hasBit_foldl_or]
  by_cases h : m.always = true <;> simp [h]

theorem hasBit_toFlags_zero : HasBit m.toFlags.1 0 ↔ m.always = true := by
  rw [hasBit_toFlags]
  simp [@eq_comm _ 0]

theorem hasBit_toFlags_place : HasBit m.toFlags.1 k.place ↔ ∃ p ∈ m.predicates, p.criterion.kind = k := by
  rw [hasBit_toFlags]
  simp [@eq_comm _ k]

theorem hasBit_toFlags_sense : HasBit m.toFlags.1 (k.place + 1) ↔ m.Denies k := by
  rw [hasBit_toFlags]
  simp [Denies, @eq_comm _ (k.place + 1), @eq_comm _ k, and_comm]

theorem slot_toFlags : m.toFlags.2.slot k = ((m.lastOf? k).map (·.criterion)).or (({} : MeshFields).slot k) := by
  rw [toFlags, foldl_recordFlag, MeshFields.slot_foldl_record, lastOf?]

/-! ## The match of some flags -/

theorem predicateOf?_eq (bits : UInt32) (fields : MeshFields) : predicateOf? bits fields k =
    if HasBit bits k.place then
      some ⟨fields.criterion k, if HasBit bits (k.place + 1) then .negative else .positive⟩
    else none := by
  unfold predicateOf?
  simp only [← and_ne_zero_iff k.toNat_flag, ← and_ne_zero_iff k.toNat_senseFlag, ne_eq, ite_not]

theorem always_ofFlags (bits : UInt32) (fields : MeshFields) : (ofFlags bits fields).always = true ↔ HasBit bits 0 := by
  rw [ofFlags, bne_iff_ne]
  exact and_ne_zero_iff (i := 0) rfl

theorem predicateOf?_toFlags : predicateOf? m.toFlags.1 m.toFlags.2 k = m.merged? k := by
  rw [predicateOf?_eq, merged?]
  simp only [hasBit_toFlags_place, hasBit_toFlags_sense]
  cases hlast : m.lastOf? k with
  | none =>
    rw [if_neg]
    · rfl
    · rintro ⟨p, hp, hk⟩
      exact lastOf?_eq_none_iff.1 hlast p hp hk
  | some p =>
    have hslot : m.toFlags.2.slot k = some p.criterion := by
      rw [slot_toFlags, hlast]
      rfl
    rw [if_pos ⟨p, mem_of_lastOf? hlast⟩, MeshFields.criterion_of_slot hslot]
    rfl

/-- **A match read back from its flags** has its kinds in the order of the word, each of them once. -/
theorem ofFlags_toFlags : ofFlags m.toFlags.1 m.toFlags.2 = ⟨m.always, Kind.all.filterMap m.merged?⟩ := by
  have halways : (ofFlags m.toFlags.1 m.toFlags.2).always = m.always := by
    rw [Bool.eq_iff_iff, always_ofFlags, hasBit_toFlags_zero]
  have hpredicates : (ofFlags m.toFlags.1 m.toFlags.2).predicates = Kind.all.filterMap m.merged? :=
    congrArg (Kind.all.filterMap ·) (funext (predicateOf?_toFlags m))
  rw [← halways, ← hpredicates]

/-! ## One kind -/

theorem kind_of_merged? {m : MeshMatch} {k : Kind} {p : Predicate} (h : m.merged? k = some p) : p.criterion.kind = k := by
  obtain ⟨last, hlast, rfl⟩ := Option.map_eq_some_iff.1 h
  exact (mem_of_lastOf? hlast).2

theorem filterMap_one (o : Option Predicate) : (Kind.all.filterMap fun k' => if k' = k then o else none) = o.toList := by
  cases k <;> cases o <;> rfl

theorem filter_read_back : (ofFlags m.toFlags.1 m.toFlags.2).predicates.filter (·.criterion.kind = k) =
    (m.merged? k).toList := by
  rw [ofFlags_toFlags, List.filter_filterMap, ← filterMap_one k]
  congr 1
  funext k'
  by_cases hk : k' = k
  · rw [if_pos hk, ← hk]
    cases h : m.merged? k' with
    | none => rfl
    | some p => simp [kind_of_merged? h]
  · rw [if_neg hk]
    cases h : m.merged? k' with
    | none => rfl
    | some p => simp [kind_of_merged? h, hk]

theorem not_denies_iff {m : MeshMatch} {k : Kind} :
    ¬ m.Denies k ↔ ∀ p ∈ m.predicates, p.criterion.kind = k → p.sense = .positive := by
  simp [Denies, Sense.eq_negative_iff]

/-- The last predicate comes back as it was unless its sense is not that of the kind. -/
theorem merged?_eq_last_iff {m : MeshMatch} {k : Kind} {last : Predicate} (hlast : m.lastOf? k = some last) :
    m.merged? k = some last ↔ (m.Denies k → last.sense = .negative) := by
  obtain ⟨hmem, hk⟩ := mem_of_lastOf? hlast
  rw [merged?, hlast, Option.map_some, Option.some.injEq]
  obtain ⟨c, s⟩ := last
  by_cases hd : m.Denies k
  · simp [hd, eq_comm]
  · have hs : s = .positive := not_denies_iff.1 hd _ hmem hk
    simp [hd, hs]

/-- **Of several predicates of a kind one comes back**, with the value of the last and negative if any of them is.  It is
the last itself exactly when that is negative, or none is. -/
theorem repeated_kind_read_back (m : MeshMatch) (k : Kind) (hk : ∃ p ∈ m.predicates, p.criterion.kind = k) :
    ∃ last read, m.lastOf? k = some last ∧
      (ofFlags m.toFlags.1 m.toFlags.2).predicates.filter (·.criterion.kind = k) = [read] ∧
      read.criterion = last.criterion ∧
      (read.sense = .negative ↔ ∃ p ∈ m.predicates, p.criterion.kind = k ∧ p.sense = .negative) ∧
      (read = last ↔ last.sense = .negative ∨ ∀ p ∈ m.predicates, p.criterion.kind = k → p.sense = .positive) := by
  cases hlast : m.lastOf? k with
  | none =>
    obtain ⟨p, hp, hpk⟩ := hk
    exact absurd hpk (lastOf?_eq_none_iff.1 hlast p hp)
  | some last =>
    have hread : m.merged? k = some ⟨last.criterion, if m.Denies k then .negative else .positive⟩ := by
      rw [merged?, hlast]
      rfl
    refine ⟨last, ⟨last.criterion, if m.Denies k then .negative else .positive⟩, rfl, ?_, rfl, ?_, ?_⟩
    · rw [filter_read_back, hread]
      rfl
    · show _ ↔ m.Denies k
      by_cases hd : m.Denies k <;> simp [hd]
    · rw [← not_denies_iff, ← imp_iff_or_not, ← merged?_eq_last_iff hlast, hread, Option.some.injEq]

/-- A priority is denied first, and another one is wanted later. -/
def mixed : MeshMatch :=
  ⟨false, [⟨.userPriority 1, .negative⟩, ⟨.destPort 443, .positive⟩, ⟨.userPriority 2, .positive⟩]⟩

theorem repeated_kind_read_back_mixed : (∃ p ∈ mixed.predicates, p.criterion.kind = .userPriority) ∧
    ∃ read, (ofFlags mixed.toFlags.1 mixed.toFlags.2).predicates.filter (·.criterion.kind = .userPriority) = [read] ∧
      read.criterion = .userPriority 2 ∧ read.sense = .negative ∧ read ≠ ⟨.userPriority 2, .positive⟩ := by
  have hk : ∃ p ∈ mixed.predicates, p.criterion.kind = .userPriority := by decide
  obtain ⟨last, read, hlast, hread, hvalue, hsense, hsame⟩ := repeated_kind_read_back mixed .userPriority hk
  obtain rfl : ⟨.userPriority 2, .positive⟩ = last := Option.some.inj hlast
  exact ⟨hk, read, hread, hvalue, hsense.2 (by decide), mt hsame.1 (by decide)⟩

/-- **A sense outlives its predicate**: the match that comes back accepts no frame that was accepted. -/
theorem sense_outlives_predicate :
    mixed.lastOf? .userPriority = some ⟨.userPriority 2, .positive⟩ ∧
    (ofFlags mixed.toFlags.1 mixed.toFlags.2).predicates = [⟨.userPriority 2, .negative⟩, ⟨.destPort 443, .positive⟩] ∧
    (∀ f, mixed.accepts f = true → (ofFlags mixed.toFlags.1 mixed.toFlags.2).accepts f = false) ∧
    ¬ ∀ (m : MeshMatch) (k : Kind) (last : Predicate), m.lastOf? k = some last →
      (ofFlags m.toFlags.1 m.toFlags.2).predicates.filter (·.criterion.kind = k) = [last] := by
  have hlast : mixed.lastOf? .userPriority = some ⟨.userPriority 2, .positive⟩ := by decide
  have hback : ofFlags mixed.toFlags.1 mixed.toFlags.2 =
      ⟨false, [⟨.userPriority 2, .negative⟩, ⟨.destPort 443, .positive⟩]⟩ := by decide +kernel
  refine ⟨hlast, by rw [hback], fun f hf => ?_, fun h => ?_⟩
  · rw [hback]
    have hp : f.priority = 2 := by simp_all [accepts, mixed, Predicate.accepts, Criterion.compare, Sense.apply]
    simp [accepts, Predicate.accepts, Criterion.compare, Sense.apply, hp]
  · have hread := h mixed .userPriority _ hlast
    rw [hback] at hread
    revert hread
    decide

end MeshMatch
end TrafficRules
