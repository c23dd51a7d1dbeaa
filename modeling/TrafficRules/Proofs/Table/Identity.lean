import TrafficRules.Proofs.Table.Run
/-!
# Identity — how many stored rules answer to one name

A rule of a family that is not flow-keyed answers to its id: in a reachable table at most one rule of the family has
it (`id_keyed_unique`), since an addition looks for the rule it stands for in the one chain that can hold it, and a
deleted id stays unknown until a rule of that id is added.
-/
namespace TrafficRules
namespace Table

/-! ## One node of an identity -/

section One

variable {p : Node → Bool} (hp : ∀ n, p n = true → ∀ m, p m = true ↔ m.key = n.key ∧ m.sameIdentity n = true)
include hp

/-- Where the nodes of a kind are those that any one of them stands for, one that comes takes the place of the one
that is there. -/
theorem countP_put_le_one {s : Store} (h : s.Valid) (n : Node) (hle : s.nodes.countP p ≤ 1) :
    (s.put n).nodes.countP p ≤ 1 := by
  have hcount := h.countP_put p n
  by_cases hn : p n = true
  · rw [if_pos hn] at hcount
    cases hf : s.findSame n with
    | none =>
      have hnone : s.nodes.countP p = 0 := by
        refine List.countP_eq_zero.2 (fun m hm hpm => ?_)
        obtain ⟨hk, hsame⟩ := (hp n hn m).1 hpm
        rw [(h.findSame_eq_none_iff n).1 hf m hm hk] at hsame
        cases hsame
      omega
    | some old =>
      obtain ⟨-, hk, hsame⟩ := h.of_findSame hf
      have hold := (hp n hn old).2 ⟨hk, hsame⟩
      rw [hf, Option.toList_some, List.countP_singleton, if_pos hold] at hcount
      omega
  · rw [if_neg hn] at hcount
    omega

theorem Reachable.countP_le_one {t : Table} (h : Reachable t) : t.store.nodes.countP p ≤ 1 := by
  induction h with
  | fresh config plugins =>
    show Store.empty.nodes.countP _ ≤ 1
    rw [Store.nodes_empty]
    exact Nat.zero_le 1
  | @add t r h ih =>
    rcases t.add_cases r with ⟨e, -, ht⟩ | ⟨-, hs, -⟩
    · rw [ht]
      exact ih
    · rw [hs]
      exact countP_put_le_one hp h.valid.store _ ih
  | delete sel c h ih => exact Nat.le_trans (countP_step_le h _ (c := .delete sel c) (by simp)) ih
  | flush c h ih => exact Nat.le_trans (countP_step_le h _ (c := .flush c) (by simp)) ih
  | count x _ ih => exact ih
  | plug plugins _ ih => exact ih

end One

/-! ## Families named by id -/

theorem names_id_iff {c : Classifier} {i : UInt32} {n : Node} :
    (Selector.id i).names c n = true ↔ n.rule.classifier = c ∧ n.rule.id = i := by
  simp [Selector.names]

theorem names_flow_iff {tuple : FlowTuple} {n : Node} :
    (Selector.flow tuple).names .ifli n = true ↔ n.rule.classifier = .ifli ∧ n.rule.flow.tuple = tuple := by
  unfold Selector.names
  rw [Bool.and_eq_true, beq_iff_eq, beq_iff_eq]
  refine and_congr_right fun hc => ?_
  rw [Node.tuple?_of_flowKeyed (Classifier.isFlowKeyed_iff.2 hc), Option.some.injEq]

theorem names_iff_sameIdentity {c : Classifier} (hc : c.isFlowKeyed = false) {i : UInt32} {n : Node}
    (hn : (Selector.id i).names c n = true) (m : Node) :
    (Selector.id i).names c m = true ↔ m.key = n.key ∧ m.sameIdentity n = true := by
  obtain ⟨rfl, rfl⟩ := names_id_iff.1 hn
  rw [names_id_iff, Node.sameIdentity_iff, if_neg (by simp [hc])]
  refine ⟨fun hm => ⟨?_, hm⟩, fun hm => hm.2⟩
  rw [Node.key_of_not_flowKeyed hc, Node.key_of_not_flowKeyed (by rw [hm.1]; exact hc), hm.2]

theorem countP_names_le_one {t : Table} (h : Reachable t) {c : Classifier} (hc : c.isFlowKeyed = false) (i : UInt32) :
    t.store.nodes.countP ((Selector.id i).names c) ≤ 1 :=
  h.countP_le_one (fun _ hn m => names_iff_sameIdentity hc hn m)

theorem Reachable.eq_of_id {t : Table} (h : Reachable t) {m n : Node} (hm : m ∈ t.store.nodes) (hn : n ∈ t.store.nodes)
    (hk : n.rule.classifier.isFlowKeyed = false) (hc : m.rule.classifier = n.rule.classifier) (hi : m.rule.id = n.rule.id) :
    m = n :=
  Node.eq_of_countP_le_one (countP_names_le_one h hk n.rule.id) hm hn (names_id_iff.2 ⟨hc, hi⟩) (names_id_iff.2 ⟨rfl, rfl⟩)

/-- A stored rule of a family named by id is what its id finds. -/
theorem find_of_mem {t : Table} (h : Reachable t) {n : Node} (hn : n ∈ t.store.nodes)
    (hc : n.rule.classifier.isFlowKeyed = false) : t.store.find (.id n.rule.id) n.rule.classifier = some n := by
  cases hf : t.store.find (.id n.rule.id) n.rule.classifier with
  | none =>
    have hnone := (h.valid.store.find_eq_none_iff (by simp [Selector.isKeyed, hc])).1 hf n hn
    rw [names_id_iff.2 ⟨rfl, rfl⟩] at hnone
    cases hnone
  | some m =>
    obtain ⟨hm, hname⟩ := h.valid.store.of_find hf
    obtain ⟨hmc, hmi⟩ := names_id_iff.1 hname
    rw [h.eq_of_id hm hn hc hmc hmi]

theorem named_of_findSame {t : Table} (h : Reachable t) {r : Rule} {old : Node}
    (hf : t.store.findSame (t.incoming r) = some old) (hc : r.classifier.isFlowKeyed = false) :
    old.rule.classifier = r.classifier ∧ old.rule.id = r.id := by
  obtain ⟨-, hk, hsame⟩ := h.valid.store.of_findSame hf
  have hname : (Selector.id r.id).names r.classifier (t.incoming r) = true := names_id_iff.2 ⟨rfl, rfl⟩
  exact names_id_iff.1 ((names_iff_sameIdentity hc hname old).2 ⟨hk, hsame⟩)

theorem not_named_of_kept {t : Table} (h : Reachable t) {r : Rule} {o : Outcome} (ho : (t.add r).result = .ok o)
    {m : Node} (hm : m ∈ t.store.nodes) (hkept : m ∈ (t.add r).table.store.nodes) (hc : m.rule.classifier.isFlowKeyed = false) :
    ¬ (m.rule.classifier = r.classifier ∧ m.rule.id = r.id) := by
  rintro ⟨hmc, hmi⟩
  have hnew : t.incoming r ∈ (t.add r).table.store.nodes := by
    rw [store_of_accepted ho]
    exact h.valid.store.mem_put_self _
  have heq := (h.add r).eq_of_id hnew hkept hc hmc.symm hmi.symm
  exact h.valid.incoming_fresh r m hm (congrArg Node.serial heq.symm)

/-- A deletion takes the one node of its name away. -/
theorem countP_names_delete {t : Table} (h : Reachable t) {c : Classifier} (hc : c.isFlowKeyed = false) {i : UInt32}
    (hd : (t.delete (.id i) c).result = .ok .deleted) :
    (t.delete (.id i) c).table.store.nodes.countP ((Selector.id i).names c) = 0 := by
  have hone := countP_names_le_one h hc i
  rcases t.delete_cases (.id i) c with ⟨e, he, -⟩ | ⟨n, hf, -⟩
  · rw [he] at hd
    cases hd
  · have hcount := countP_deleted h.valid hf ((Selector.id i).names c)
    rw [if_pos (h.valid.store.of_find hf).2] at hcount
    omega

/-- A name nothing stored has is taken by an addition of that name only. -/
theorem step_countP_names {t : Table} (h : Reachable t) {c : Classifier} {i : UInt32}
    (hz : t.store.nodes.countP ((Selector.id i).names c) = 0) (call : Call) (hx : ¬ (t.step call).2.Adds c i) :
    (t.step call).1.store.nodes.countP ((Selector.id i).names c) = 0 := by
  rcases call.add_or_not with ⟨r, rfl⟩ | ha
  · show (t.add r).table.store.nodes.countP _ = 0
    rcases t.add_cases r with ⟨e, -, ht⟩ | ⟨⟨o, ho⟩, -⟩
    · rw [ht]
      exact hz
    · have hn : ¬ (Selector.id i).names c (t.incoming r) = true := by
        intro hn
        obtain ⟨hrc, hri⟩ := names_id_iff.1 hn
        exact hx ⟨r, o, rfl, congrArg Answer.changed ho, hrc, hri⟩
      have hcount := countP_accepted h.valid.store ho ((Selector.id i).names c)
      rw [if_neg hn] at hcount
      omega
  · exact Nat.le_zero.1 (hz ▸ countP_step_le h _ ha)

theorem run_countP_names {c : Classifier} {i : UInt32} : ∀ (cs : List Call) {t : Table}, Reachable t →
    t.store.nodes.countP ((Selector.id i).names c) = 0 → (∀ x ∈ (run cs t).2, ¬ x.Adds c i) →
    (run cs t).1.store.nodes.countP ((Selector.id i).names c) = 0
  | [], _, _, hz, _ => hz
  | call :: cs, _, h, hz, hx =>
    run_countP_names cs (step_reachable h call) (step_countP_names h hz call (hx _ List.mem_cons_self))
      (fun x hxs => hx x (List.mem_cons_of_mem _ hxs))

theorem query_of_unnamed {t : Table} (h : Reachable t) {c : Classifier} (hc : c.isFlowKeyed = false) {i : UInt32}
    (hz : t.store.nodes.countP ((Selector.id i).names c) = 0) :
    t.query (.id i) c = .error (if t.store.isEmpty then .tableEmpty else .ruleNotFound i c) := by
  have hnone : t.store.find (.id i) c = none := by
    refine (h.valid.store.find_eq_none_iff (by simp [Selector.isKeyed, hc])).2 (fun n hn => ?_)
    simpa using List.countP_eq_zero.1 hz n hn
  rw [query_eq]
  rw [hnone]
  split <;> rfl

/-- **At most one rule of a family named by id has an id**, any id; and once it is deleted the id is unknown until a
rule of that family and id is added. -/
theorem id_keyed_unique {t : Table} (h : Reachable t) {c : Classifier} (hc : c ≠ .ifli) (i : UInt32) :
    (t.rules.filter fun r => r.classifier == c && r.id == i).length ≤ 1 ∧
    ((t.delete (.id i) c).result = .ok .deleted →
      ∀ cs, (∀ x ∈ (run cs (t.delete (.id i) c).table).2, ¬ x.Adds c i) →
        (run cs (t.delete (.id i) c).table).1.query (.id i) c =
          .error (if (run cs (t.delete (.id i) c).table).1.store.isEmpty then .tableEmpty else .ruleNotFound i c)) := by
  have hk : c.isFlowKeyed = false := by cases c <;> first | rfl | exact absurd rfl hc
  constructor
  · unfold rules
    rw [← List.countP_eq_length_filter, List.countP_map]
    exact countP_names_le_one h hk i
  · intro hd cs hx
    have h' := h.delete (.id i) c
    exact query_of_unnamed (run_reachable cs h') hk (run_countP_names cs h' (countP_names_delete h hk hd) hx)

/-- Other rules of the id, of its family or of its key, come and go without it. -/
def aside : List Call :=
  [.add { id := 2, classifier := .mesh }, .add { id := 9, classifier := .scs }, .delete (.flow { srcPort := 2 }) .ifli,
    .add { id := 2, classifier := .sawf, precedence := 3 }, .flush (some .mscs), .queryByType .scs]

theorem id_keyed_unique_underOneKey : (underOneKey.delete (.id 2) .scs).result = .ok .deleted ∧
    (underOneKey.rules.filter fun r => r.classifier == .scs && r.id == 2).length ≤ 1 ∧
    (run aside (underOneKey.delete (.id 2) .scs).table).1.query (.id 2) .scs = .error (.ruleNotFound 2 .scs) := by
  have hd : (underOneKey.delete (.id 2) .scs).result = .ok .deleted := by decide +kernel
  have hx : ∀ x ∈ (run aside (underOneKey.delete (.id 2) .scs).table).2, ¬ x.Adds .scs 2 := by
    rintro x hx ⟨r, o, hcall, -, hc, hi⟩
    have hr : Call.add r ∈ aside := by
      rw [← hcall]
      exact call_mem_of_shown hx
    simp only [aside, List.mem_cons, Call.add.injEq, reduceCtorEq, List.not_mem_nil, or_false, false_or] at hr
    rcases hr with rfl | rfl | rfl
    · cases hc
    · cases hi
    · cases hc
  obtain ⟨hone, hgone⟩ := id_keyed_unique reachable_underOneKey (show Classifier.scs ≠ .ifli by decide) 2
  exact ⟨hd, hone, (hgone hd aside hx).trans (by decide +kernel)⟩

end Table
end TrafficRules
