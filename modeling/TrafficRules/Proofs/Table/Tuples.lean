import TrafficRules.Proofs.Table.Identity
/-!
# Tuples — flow-keyed rules without an id

A flow-keyed rule without an id answers to its tuple, but the chain of its hash also holds flow-keyed rules with an
id, whose tuple changes when they are replaced.  An addition without an id takes the place of the first node of its
tuple.  When that is a rule with an id, in front of one without, the two rules without an id share a tuple from then on
(`unnamed_tuples_shared`); nothing else makes two share one (`unnamed_tuples_unique_iff`).
-/
namespace TrafficRules

/-- A flow-keyed rule of the tuple that has no id. -/
def Rule.isUnnamed (tuple : FlowTuple) (r : Rule) : Bool :=
  r.classifier.isFlowKeyed && r.id == noRuleId && r.flow.tuple == tuple

theorem Rule.isUnnamed_iff {tuple : FlowTuple} {r : Rule} :
    r.isUnnamed tuple = true ↔ r.classifier = .ifli ∧ r.id = noRuleId ∧ r.flow.tuple = tuple := by
  unfold isUnnamed
  rw [Bool.and_eq_true, Bool.and_eq_true, beq_iff_eq, beq_iff_eq, and_assoc]
  refine and_congr_left' ?_
  cases r.classifier <;> decide

namespace Table

/-- No two stored rules without an id share a tuple, so a deletion by tuple that takes one away leaves none behind. -/
structure TuplesUnique (t : Table) : Prop where
  stored : ∀ tuple, (t.rules.filter (·.isUnnamed tuple)).length ≤ 1
  deleted : ∀ tuple n, t.store.find (.flow tuple) .ifli = some n → n.rule.id = noRuleId →
    (t.delete (.flow tuple) .ifli).result = .ok .deleted ∧
      ∀ r ∈ (t.delete (.flow tuple) .ifli).table.rules, r.isUnnamed tuple = false

/-- The rule is stored without an id in the place of one with an id, while another without one has its tuple. -/
def Displaces (t : Table) (r : Rule) : Prop :=
  r.isUnnamed r.flow.tuple = true ∧ (∃ o, (t.add r).result = .ok o) ∧
    (∃ x, t.store.findSame (t.incoming r) = some x ∧ x.rule.id ≠ noRuleId) ∧
    ∃ y ∈ t.rules, y.isUnnamed r.flow.tuple = true

/-- The stored nodes without an id that share the tuple. -/
def unnamedCount (t : Table) (tuple : FlowTuple) : Nat := t.store.nodes.countP (·.rule.isUnnamed tuple)

theorem length_filter_isUnnamed (t : Table) (tuple : FlowTuple) :
    (t.rules.filter (·.isUnnamed tuple)).length = t.unnamedCount tuple := by
  unfold rules unnamedCount
  rw [← List.countP_eq_length_filter, List.countP_map]
  rfl

theorem unnamedCount_eq_zero_iff {t : Table} {tuple : FlowTuple} :
    t.unnamedCount tuple = 0 ↔ ∀ r ∈ t.rules, r.isUnnamed tuple = false := by
  rw [← length_filter_isUnnamed, List.length_eq_zero_iff, List.filter_eq_nil_iff]
  exact forall₂_congr fun r _ => by rw [Bool.not_eq_true]

theorem isUnnamed_of_find {t : Table} (h : Reachable t) {tuple : FlowTuple} {n : Node}
    (hf : t.store.find (.flow tuple) .ifli = some n) (hid : n.rule.id = noRuleId) :
    n ∈ t.store.nodes ∧ n.rule.isUnnamed tuple = true := by
  obtain ⟨hn, hname⟩ := h.valid.store.of_find hf
  obtain ⟨hc, ht⟩ := names_flow_iff.1 hname
  exact ⟨hn, Rule.isUnnamed_iff.2 ⟨hc, hid, ht⟩⟩

theorem tuplesUnique_iff {t : Table} (h : Reachable t) : TuplesUnique t ↔ ∀ tuple, t.unnamedCount tuple ≤ 1 := by
  constructor
  · intro hu tuple
    rw [← length_filter_isUnnamed]
    exact hu.stored tuple
  · intro hle
    refine ⟨fun tuple => by rw [length_filter_isUnnamed]; exact hle tuple, fun tuple n hf hid => ?_⟩
    obtain ⟨hn, hun⟩ := isUnnamed_of_find h hf hid
    have hcount := countP_deleted h.valid hf (·.rule.isUnnamed tuple)
    have hone := hle tuple
    rw [if_pos hun] at hcount
    refine ⟨(delete_of_found h.valid hf).1, unnamedCount_eq_zero_iff.1 ?_⟩
    unfold unnamedCount at hone ⊢
    omega

/-! ## One addition -/

/-- An incoming node without an id stands for the nodes of its tuple in the chain of its hash, with an id or without. -/
theorem sameIdentity_of_isUnnamed {tuple : FlowTuple} {n : Node} (hn : n.rule.isUnnamed tuple = true) {m : Node}
    (hm : m.rule.isUnnamed tuple = true) : m.key = n.key ∧ m.sameIdentity n = true := by
  obtain ⟨hnc, hni, hnt⟩ := Rule.isUnnamed_iff.1 hn
  obtain ⟨hmc, -, hmt⟩ := Rule.isUnnamed_iff.1 hm
  have hnk : n.rule.classifier.isFlowKeyed = true := by rw [hnc]; rfl
  have hmk : m.rule.classifier.isFlowKeyed = true := by rw [hmc]; rfl
  constructor
  · rw [Node.key_of_tuple (Node.tuple?_of_flowKeyed hmk), Node.key_of_tuple (Node.tuple?_of_flowKeyed hnk), hmt, hnt]
  · rw [Node.sameIdentity_iff, if_pos ⟨hnk, hni⟩]
    exact ⟨hmc.trans hnc.symm, hmt.trans hnt.symm⟩

theorem isUnnamed_of_findSame {s : Store} (h : s.Valid) {tuple : FlowTuple} {n x : Node}
    (hn : n.rule.isUnnamed tuple = true) (hf : s.findSame n = some x) :
    x.rule.isUnnamed tuple = true ↔ x.rule.id = noRuleId := by
  obtain ⟨-, -, hsame⟩ := h.of_findSame hf
  obtain ⟨hnc, hni, hnt⟩ := Rule.isUnnamed_iff.1 hn
  rw [Node.sameIdentity_iff, if_pos ⟨by rw [hnc]; rfl, hni⟩] at hsame
  rw [Rule.isUnnamed_iff]
  exact ⟨fun hx => hx.2.1, fun hid => ⟨hsame.1.trans hnc, hid, hsame.2.trans hnt⟩⟩

/-- The count of a tuple after an addition: one more exactly when a rule without an id does not replace another one. -/
theorem unnamedCount_add {t : Table} (h : Reachable t) {r : Rule} (ho : ∃ o, (t.add r).result = .ok o)
    (tuple : FlowTuple) :
    ((t.store.findSame (t.incoming r)).toList.countP fun x => x.rule.isUnnamed tuple) +
        (t.add r).table.unnamedCount tuple =
      t.unnamedCount tuple + if r.isUnnamed tuple then 1 else 0 := by
  obtain ⟨o, ho⟩ := ho
  exact countP_accepted h.valid.store ho (·.rule.isUnnamed tuple)

/-- **An addition makes two rules without an id share a tuple exactly when it displaces one with an id.** -/
theorem tuplesUnique_add_iff {t : Table} (h : Reachable t) (hu : TuplesUnique t) (r : Rule) :
    TuplesUnique (t.add r).table ↔ ¬ Displaces t r := by
  have hle := (tuplesUnique_iff h).1 hu
  rw [tuplesUnique_iff (h.add r)]
  constructor
  · rintro hle' ⟨hun, ho, ⟨x, hf, hx⟩, y, hy, hyun⟩
    have hcount := unnamedCount_add h ho r.flow.tuple
    have hxun : x.rule.isUnnamed r.flow.tuple = false :=
      Bool.eq_false_iff.2 (mt (isUnnamed_of_findSame h.valid.store hun hf).1 hx)
    rw [hf, Option.toList_some, List.countP_singleton, if_neg (by rw [hxun]; decide), if_pos hun] at hcount
    have hpos : t.unnamedCount r.flow.tuple ≠ 0 := fun hz => by
      rw [unnamedCount_eq_zero_iff.1 hz y hy] at hyun
      cases hyun
    have hone := hle' r.flow.tuple
    omega
  · intro hd tuple
    rcases t.add_cases r with ⟨e, -, ht⟩ | ⟨ho, -, -⟩
    · rw [ht]
      exact hle tuple
    have hone := hle tuple
    have hcount := unnamedCount_add h ho tuple
    by_cases hun : r.isUnnamed tuple = true
    · obtain ⟨-, -, rfl⟩ := Rule.isUnnamed_iff.1 hun
      rw [if_pos hun] at hcount
      cases hf : t.store.findSame (t.incoming r) with
      | none =>
        have hzero : t.unnamedCount r.flow.tuple = 0 := by
          refine List.countP_eq_zero.2 (fun m hm hmun => ?_)
          obtain ⟨hk, hsame⟩ := sameIdentity_of_isUnnamed (n := t.incoming r) hun hmun
          rw [(h.valid.store.findSame_eq_none_iff _).1 hf m hm hk] at hsame
          cases hsame
        omega
      | some x =>
        by_cases hx : x.rule.id = noRuleId
        · have hxun := (isUnnamed_of_findSame h.valid.store (n := t.incoming r) hun hf).2 hx
          rw [hf, Option.toList_some, List.countP_singleton, if_pos hxun] at hcount
          omega
        · have hzero : t.unnamedCount r.flow.tuple = 0 := unnamedCount_eq_zero_iff.2 (fun y hy =>
            Bool.eq_false_iff.2 (fun hyun => hd ⟨hun, ho, ⟨x, hf, hx⟩, y, hy, hyun⟩))
          omega
    · rw [if_neg hun] at hcount
      omega

/-! ## Runs -/

theorem tuplesUnique_other {t : Table} (h : Reachable t) (hu : TuplesUnique t) (c : Call) (hc : ∀ r, c ≠ .add r) :
    TuplesUnique (t.step c).1 :=
  (tuplesUnique_iff (step_reachable h c)).2 (fun tuple =>
    Nat.le_trans (countP_step_le h _ hc) ((tuplesUnique_iff h).1 hu tuple))

theorem tuplesUnique_fresh (config : TableConfig) (plugins : Plugins) : TuplesUnique { config, plugins } := by
  refine (tuplesUnique_iff (.fresh config plugins)).2 (fun tuple => ?_)
  show Store.empty.nodes.countP _ ≤ 1
  rw [Store.nodes_empty]
  exact Nat.zero_le 1

theorem tuplesUnique_run (cs : List Call) {t : Table} (h : Reachable t) (hu : TuplesUnique t)
    (hd : ∀ pre r, pre ++ [.add r] <+: cs → ¬ Displaces (run pre t).1 r) : TuplesUnique (run cs t).1 :=
  run_of_flawless tuplesUnique_add_iff tuplesUnique_other cs h hu hd

/-- **Along a run from a fresh table the tuples of rules without an id stay unique exactly when no addition displaces a
rule with an id.** -/
theorem unnamed_tuples_unique_iff (config : TableConfig) (plugins : Plugins) (cs : List Call) :
    (∀ pre, pre <+: cs → TuplesUnique (run pre { config, plugins }).1) ↔
      ∀ pre r, pre ++ [.add r] <+: cs → ¬ Displaces (run pre { config, plugins }).1 r := by
  have hfresh := Reachable.fresh config plugins
  constructor
  · intro hu pre r hpre
    have hbefore := hu pre ((List.prefix_append _ _).trans hpre)
    have hafter := hu (pre ++ [.add r]) hpre
    rw [run_append] at hafter
    exact (tuplesUnique_add_iff (run_reachable pre hfresh) hbefore r).1 hafter
  · intro hd pre hpre
    exact tuplesUnique_run pre hfresh (tuplesUnique_fresh config plugins)
      (fun pre' r hpre' => hd pre' r (hpre'.trans hpre))

/-- A flow-keyed rule with the id 5, moved by its second addition to the tuple of the rule without an id behind it. -/
def crossed : List Call :=
  [.add { id := 5, classifier := .ifli, flow := { dstPort := some 2 } },
    .add { classifier := .ifli, flow := { srcPort := some 2 } },
    .add { id := 5, classifier := .ifli, flow := { srcPort := some 2 } },
    .add { classifier := .ifli, flow := { srcPort := some 2 } }]

/-- Two rules without an id share a tuple, and the deletion of one leaves the other. -/
theorem unnamed_tuples_shared :
    ((run crossed {}).1.rules.filter (·.isUnnamed { srcPort := 2 })).length = 2 ∧
    ((run (crossed ++ [.delete (.flow { srcPort := 2 }) .ifli]) {}).1.rules.filter
      (·.isUnnamed { srcPort := 2 })).length = 1 ∧
    ¬ TuplesUnique (run crossed {}).1 :=
  ⟨by decide +kernel, by decide +kernel, fun h => absurd (h.stored { srcPort := 2 }) (by decide +kernel)⟩

end Table
end TrafficRules
