import TrafficRules.Proofs.Lookup.Families
import TrafficRules.Proofs.Mesh.Layout
import TrafficRules.Proofs.Table.Left
import TrafficRules.Proofs.Table.Origin
/-!
# Admission — flows that keep their own priority

A rule with a bitmap of traffic identifiers admits a flow that it matches when the bit of the flow's priority is set, and
the flow then keeps its priority.  Admission is a condition of the scan, so a rule that matches without admitting is passed
over like any other (`classifyMscs_deleteEach`).  An admitted priority is below eight and the output code of a stored rule
below ten, so neither is the octet that stands for an absent priority (`priority_decisions_unambiguous`).
-/
namespace TrafficRules

theorem MscsParams.le_of_testBit {m : MscsParams} {tid : UInt8} (h : m.tidBitmap.toNat.testBit tid.toNat = true) :
    tid ≤ 7 := by
  have hle : 2 ^ tid.toNat ≤ m.tidBitmap.toNat := Nat.ge_two_pow_of_testBit h
  have hlt : tid.toNat < 8 :=
    (Nat.pow_lt_pow_iff_right Nat.one_lt_two).1 (Nat.lt_of_le_of_lt hle m.tidBitmap.toNat_lt)
  exact UInt8.le_iff_toNat_le.2 (Nat.le_of_lt_succ hlt)

theorem MscsParams.shifted_and_ne_zero_iff {m : MscsParams} {tid : UInt8} (hlt : tid.toNat < 32) :
    (1 : UInt32) <<< tid.toUInt32 &&& m.tidBitmap.toUInt32 ≠ 0 ↔ m.tidBitmap.toNat.testBit tid.toNat = true := by
  have hshift : ((1 : UInt32) <<< tid.toUInt32).toNat = 2 ^ tid.toNat := by
    have hpow : 2 ^ tid.toNat < 2 ^ 32 := Nat.pow_lt_pow_right (by decide) hlt
    rw [UInt32.toNat_shiftLeft, UInt8.toNat_toUInt32, Nat.mod_eq_of_lt hlt, UInt32.toNat_one, Nat.one_shiftLeft]
    exact Nat.mod_eq_of_lt hpow
  rw [UInt32.and_comm, and_ne_zero_iff hshift, HasBit, UInt8.toNat_toUInt32]

theorem MscsParams.admits_iff {m : MscsParams} {tid : UInt8} :
    m.admits tid = true ↔ m.tidBitmap.toNat.testBit tid.toNat = true := by
  have hwide : tid.toUInt32 < 32 ↔ tid.toNat < 32 := by
    rw [UInt32.lt_iff_toNat_lt, UInt8.toNat_toUInt32]
    rfl
  unfold admits checkedShiftLeft
  rw [Bool.and_eq_true, bne_iff_ne]
  constructor
  · rintro ⟨-, hany⟩
    split at hany
    · rename_i hlt
      exact (shifted_and_ne_zero_iff (hwide.1 hlt)).1 (bne_iff_ne.1 hany)
    · cases hany
  · intro hset
    have hlt : tid.toNat < 32 := Nat.lt_of_le_of_lt (UInt8.le_iff_toNat_le.1 (le_of_testBit hset)) (by decide)
    refine ⟨fun hzero => ?_, ?_⟩
    · rw [hzero] at hset
      simp at hset
    · rw [if_pos (hwide.2 hlt)]
      exact bne_iff_ne.2 ((shifted_and_ne_zero_iff hlt).2 hset)

theorem PriorityDecision.ofHit_priority (hit : Option (UInt8 × UInt32)) : (ofHit hit).priority = hit.map (·.1) := by
  cases hit <;> rfl

theorem PriorityDecision.ofHit_ruleId (hit : Option (UInt8 × UInt32)) : (ofHit hit).ruleId = hit.map (·.2) := by
  cases hit <;> rfl

theorem getD_absent_iff {o : Option UInt8} : (o.getD absentOctet = absentOctet ↔ o = none) ↔ o ≠ some absentOctet := by
  rcases o with - | v <;> simp

theorem PriorityDecision.wirePriority_eq_absent_iff {d : PriorityDecision} (h : ∀ p, d.priority = some p → p < absentOctet) :
    d.wirePriority = absentOctet ↔ d.priority = none :=
  getD_absent_iff.2 fun hp => UInt8.lt_irrefl _ (h _ hp)

def Rule.AdmitsFlow (r : Rule) (i : FlowInput) : Prop :=
  r.classifier = .mscs ∧ r.flow.accepts i .mscs = true ∧
    ∃ m, r.mscs = some m ∧ m.tidBitmap.toNat.testBit i.priority.toNat = true

theorem Rule.AdmitsFlow.priority_le {r : Rule} {i : FlowInput} (h : r.AdmitsFlow i) : i.priority ≤ 7 := by
  obtain ⟨-, -, m, -, hbit⟩ := h
  exact MscsParams.le_of_testBit hbit

/-- The rule has no parameters, or an empty bitmap, or one for other priorities. -/
def Rule.Withholds (r : Rule) (i : FlowInput) : Prop :=
  ∀ m, r.mscs = some m → m.tidBitmap = 0 ∨ m.tidBitmap.toNat.testBit i.priority.toNat = false

theorem Rule.not_admitsFlow {r : Rule} {i : FlowInput} (h : r.Withholds i) : ¬ r.AdmitsFlow i := by
  rintro ⟨-, -, m, hm, hbit⟩
  rcases h m hm with hz | hother
  · rw [hz] at hbit
    simp at hbit
  · rw [hother] at hbit
    cases hbit

theorem Scan.matches_mscs_iff {p : Plugins} {i : FlowInput} {r : Rule} : (mscs i).Matches p r ↔ r.AdmitsFlow i :=
  and_congr_right' (and_congr_right' (exists_congr fun _ => and_congr_right' MscsParams.admits_iff))

namespace Table

variable {t : Table} {i : FlowInput}

theorem classifyMscs_priority : (t.classifyMscs i).priority = (t.mscsHit i).map fun _ => i.priority := by
  unfold classifyMscs
  rw [PriorityDecision.ofHit_priority, Option.map_map]
  rfl

theorem classifyMscs_ruleId : (t.classifyMscs i).ruleId = (t.mscsHit i).map (·.rule.id) := by
  unfold classifyMscs
  rw [PriorityDecision.ofHit_ruleId, Option.map_map]
  rfl

theorem classifyMscs_isSome_iff : (t.classifyMscs i).priority.isSome = true ↔ ∃ r ∈ t.rules, r.AdmitsFlow i := by
  rw [classifyMscs_priority, Option.isSome_map]
  cases hn : t.mscsHit i with
  | none =>
    refine iff_of_false Bool.false_ne_true ?_
    rintro ⟨r, hr, hadmits⟩
    obtain ⟨n, hn', rfl⟩ := List.mem_map.1 hr
    exact (selected_eq_none_iff (.mscs i)).1 hn n hn' (Scan.matches_mscs_iff.2 hadmits)
  | some n =>
    obtain ⟨hmem, hmatch⟩ := of_selected (.mscs i) hn
    exact iff_of_true rfl ⟨n.rule, List.mem_map_of_mem hmem, Scan.matches_mscs_iff.1 hmatch⟩

/-- **The first rule that admits the flow** answers it. -/
theorem rules_of_mscsHit {n : Node} (hn : t.mscsHit i = some n) : ∃ before after,
    t.rules = before ++ n.rule :: after ∧ n.rule.AdmitsFlow i ∧ ∀ r ∈ before, ¬ r.AdmitsFlow i := by
  obtain ⟨hmatch, A, B, hnodes, hbefore⟩ := (selected_eq_some_iff (.mscs i)).1 hn
  refine ⟨A.map (·.rule), B.map (·.rule), ?_, Scan.matches_mscs_iff.1 hmatch, fun r hr hadmits => ?_⟩
  · unfold rules
    rw [hnodes, List.map_append, List.map_cons]
  · obtain ⟨m, hm, rfl⟩ := List.mem_map.1 hr
    exact hbefore m hm (Scan.matches_mscs_iff.2 hadmits)

/-- **Rules that do not admit a flow** are passed over: it is answered as if they were deleted. -/
theorem classifyMscs_deleteEach (h : Reachable t) {p : Rule → Bool}
    (hp : ∀ r, p r = true → r.classifier = .mscs ∧ ¬ r.AdmitsFlow i) :
    (deleteEach (t.rules.filter p) t).classifyMscs i = t.classifyMscs i := by
  have hleft := left_deleteEach_filter h (p := p) fun r hr => by
    rw [(hp r hr).1]
    rfl
  have hsame : (deleteEach (t.rules.filter p) t).selected (.mscs i) = t.selected (.mscs i) := by
    refine selected_agrees (hleft.agreeOn h) hleft.plugins fun n hn => ?_
    rw [Bool.not_eq_true', Bool.eq_false_iff]
    exact fun hpn => (hp _ hpn).2 (Scan.matches_mscs_iff.1 (Scan.accepts_iff.1 hn))
  have hhit : (deleteEach (t.rules.filter p) t).mscsHit i = t.mscsHit i := hsame
  unfold classifyMscs
  rw [hhit]

theorem classifyScs_priority_le (h : Reachable t) {p : UInt8} (hp : (t.classifyScs i).priority = some p) : p ≤ 9 := by
  unfold classifyScs at hp
  rw [PriorityDecision.ofHit_priority, Option.map_map] at hp
  obtain ⟨n, hn, rfl⟩ := Option.map_eq_some_iff.1 hp
  have hcode := Rule.priority_lt_of_faultless (h.faultless n (of_selected (.scs i) hn).1)
  unfold Action.noMatchCode at hcode
  grind

/-- **A priority decision says what it means.**  A flow is admitted just when a stored rule admits it, by the first of those
rules in evaluation order, and keeps its priority, which is below eight; any rules of the family that withhold admission
could be deleted without a difference.  Stream classification answers nine at most.  So what either of them sends for an
absent priority it sends for a miss alone. -/
theorem priority_decisions_unambiguous (h : Reachable t) (i : FlowInput) :
    ((t.classifyMscs i).priority.isSome = true ↔ ∃ r ∈ t.rules, r.AdmitsFlow i) ∧
    (∀ p, (t.classifyMscs i).priority = some p → p = i.priority ∧ i.priority ≤ 7 ∧
      ∃ before r after, t.rules = before ++ r :: after ∧ r.AdmitsFlow i ∧ (t.classifyMscs i).ruleId = some r.id ∧
        ∀ r' ∈ before, ¬ r'.AdmitsFlow i) ∧
    (∀ p : Rule → Bool, (∀ r, p r = true → r.classifier = .mscs ∧ r.Withholds i) →
      (deleteEach (t.rules.filter p) t).classifyMscs i = t.classifyMscs i) ∧
    (∀ p, (t.classifyScs i).priority = some p → p ≤ 9) ∧
    ((t.classifyMscs i).wirePriority = 0xff ↔ (t.classifyMscs i).priority = none) ∧
    ((t.classifyScs i).wirePriority = 0xff ↔ (t.classifyScs i).priority = none) := by
  have hmscs : ∀ p, (t.classifyMscs i).priority = some p → p = i.priority ∧ i.priority ≤ 7 ∧
      ∃ before r after, t.rules = before ++ r :: after ∧ r.AdmitsFlow i ∧ (t.classifyMscs i).ruleId = some r.id ∧
        ∀ r' ∈ before, ¬ r'.AdmitsFlow i := by
    intro p hp
    rw [classifyMscs_priority] at hp
    obtain ⟨n, hn, rfl⟩ := Option.map_eq_some_iff.1 hp
    obtain ⟨before, after, hrules, hadmits, hbefore⟩ := rules_of_mscsHit hn
    refine ⟨rfl, hadmits.priority_le, before, n.rule, after, hrules, hadmits, ?_, hbefore⟩
    rw [classifyMscs_ruleId, hn]
    rfl
  refine ⟨classifyMscs_isSome_iff, hmscs, fun p hp => ?_, fun p => classifyScs_priority_le h, ?_, ?_⟩
  · exact classifyMscs_deleteEach h fun r hr => ⟨(hp r hr).1, Rule.not_admitsFlow (hp r hr).2⟩
  · refine PriorityDecision.wirePriority_eq_absent_iff fun p hp => ?_
    obtain ⟨rfl, hle, -⟩ := hmscs p hp
    exact UInt8.lt_of_le_of_lt hle (by decide)
  · exact PriorityDecision.wirePriority_eq_absent_iff fun p hp =>
      UInt8.lt_of_le_of_lt (classifyScs_priority_le h hp) (by decide)

/-- A rule that every flow matches. -/
def tidRule (id : UInt32) (precedence : UInt8) (tids : Option UInt8) : Rule :=
  { id, classifier := .mscs, precedence, mscs := tids.map fun tidBitmap => { tidBitmap } }

/-- An empty bitmap, no parameters and the bit of another priority than five. -/
def withheld : List Rule := [tidRule 1 9 (some 0), tidRule 2 8 none, tidRule 3 7 (some 8)]

def admissions : Table :=
  (run (.add (tidRule 4 5 (some 0x28)) :: .add { id := 4, classifier := .scs } :: withheld.map .add) {}).1

theorem priority_decisions_unambiguous_admissions :
    admissions.rules.map (·.id) = [1, 2, 3, 4, 4] ∧
    admissions.classifyMscs { priority := 5 } = ⟨some 5, some 4⟩ ∧ admissions.classifyMscs { priority := 3 } = ⟨some 3, some 3⟩ ∧
    (∃ r ∈ admissions.rules, r.AdmitsFlow { priority := 5 }) ∧
    (∃ before r after, admissions.rules = before ++ r :: after ∧ r.AdmitsFlow { priority := 5 } ∧ r.id = 4 ∧
      ∀ r' ∈ before, ¬ r'.AdmitsFlow { priority := 5 }) ∧
    (deleteEach (admissions.rules.filter withheld.contains) admissions).rules.map (·.id) = [4, 4] ∧
    (deleteEach (admissions.rules.filter withheld.contains) admissions).classifyMscs { priority := 5 } =
      admissions.classifyMscs { priority := 5 } ∧
    (admissions.classifyScs {}).priority = some 9 ∧
    (admissions.classifyMscs { priority := 255 }).priority = none ∧
    (admissions.classifyMscs { priority := 255 }).wirePriority = 0xff := by
  have h : Reachable admissions := run_reachable _ (.fresh {} {})
  have hit : admissions.classifyMscs { priority := 5 } = ⟨some 5, some 4⟩ := by decide +kernel
  have hmiss : (admissions.classifyMscs { priority := 255 }).priority = none := by decide +kernel
  obtain ⟨hsome, hfirst, hpassed, -⟩ := priority_decisions_unambiguous h { priority := 5 }
  obtain ⟨-, -, before, r, after, hrules, hadmits, hid, hbefore⟩ := hfirst 5 (by rw [hit])
  obtain ⟨-, -, -, -, hwire, -⟩ := priority_decisions_unambiguous h { priority := 255 }
  refine ⟨by decide +kernel, hit, by decide +kernel, hsome.1 (by rw [hit]; rfl),
    ⟨before, r, after, hrules, hadmits, ?_, hbefore⟩, by decide +kernel, hpassed _ fun r hr => ?_, by decide +kernel, hmiss,
    hwire.2 hmiss⟩
  · rw [hit] at hid
    exact (Option.some.inj hid).symm
  · rw [List.contains_iff_mem] at hr
    simp only [withheld, List.mem_cons, List.not_mem_nil, or_false] at hr
    rcases hr with rfl | rfl | rfl <;> refine ⟨rfl, ?_⟩
    · rintro m ⟨⟩
      exact Or.inl rfl
    · rintro m ⟨⟩
    · rintro m ⟨⟩
      exact Or.inr (by decide)

end Table
end TrafficRules
