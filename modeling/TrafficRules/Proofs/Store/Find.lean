import TrafficRules.Proofs.Store.Valid
/-!
# Find — which stored node is meant

A selector names the nodes of its family with its id or its tuple; an incoming node means the nodes of its identity
(`Node.sameIdentity`).  Either way the nodes meant share a key, a flow-keyed rule named by its id apart, so the chain
of the key holds all of them: nothing is found exactly when nothing stored is meant.
-/
namespace TrafficRules

theorem Classifier.isFlowKeyed_iff {c : Classifier} : c.isFlowKeyed = true ↔ c = .ifli := by cases c <;> decide

theorem Classifier.isFlowKeyed_eq_false_iff {c : Classifier} : c.isFlowKeyed = false ↔ c ≠ .ifli := by cases c <;> decide

/-- What a selector names within a family. -/
def Selector.names (sel : Selector) (c : Classifier) (n : Node) : Bool :=
  n.rule.classifier == c && match sel with
    | .id i => n.rule.id == i
    | .flow t => n.tuple? == some t

/-- The nodes a selector names share a key: all but the flow-keyed ones named by an id. -/
def Selector.isKeyed (sel : Selector) (c : Classifier) : Bool :=
  match sel with
  | .id _ => !c.isFlowKeyed
  | .flow _ => true

/-- The key of the nodes a keyed selector names. -/
def Selector.key : Selector → UInt32
  | .id i => i
  | .flow t => t.hash

namespace Node

theorem classifier_of_names {sel : Selector} {c : Classifier} {n : Node} (h : sel.names c n = true) :
    n.rule.classifier = c := by
  unfold Selector.names at h
  rw [Bool.and_eq_true, beq_iff_eq] at h
  exact h.1

theorem key_of_not_flowKeyed {n : Node} (h : n.rule.classifier.isFlowKeyed = false) : n.key = n.rule.id := by
  simp [key, Rule.key, Rule.flowTuple?, h]

theorem key_of_tuple {n : Node} {t : FlowTuple} (h : n.tuple? = some t) : n.key = t.hash := by
  have ht : n.rule.flowTuple? = some t := h
  simp [key, Rule.key, ht]

theorem tuple?_of_flowKeyed {n : Node} (h : n.rule.classifier.isFlowKeyed = true) : n.tuple? = some n.rule.flow.tuple := by
  simp [tuple?, Rule.flowTuple?, h]

theorem key_of_names {sel : Selector} {c : Classifier} (hk : sel.isKeyed c = true) {n : Node}
    (h : sel.names c n = true) : n.key = sel.key := by
  unfold Selector.names at h
  rw [Bool.and_eq_true, beq_iff_eq] at h
  cases sel with
  | id id =>
    have hc : n.rule.classifier.isFlowKeyed = false := by
      rw [h.1]
      simpa [Selector.isKeyed] using hk
    rw [key_of_not_flowKeyed hc]
    exact beq_iff_eq.1 h.2
  | flow t => exact key_of_tuple (beq_iff_eq.1 h.2)

theorem isFlowKeyed_of_names {tuple : FlowTuple} {c : Classifier} {n : Node}
    (h : (Selector.flow tuple).names c n = true) : n.rule.classifier.isFlowKeyed = true := by
  by_contra hc
  unfold Selector.names at h
  simp [tuple?, Rule.flowTuple?, hc] at h

theorem sameIdentity_iff (n new : Node) : n.sameIdentity new = true ↔ n.rule.classifier = new.rule.classifier ∧
    if new.rule.classifier.isFlowKeyed = true ∧ new.rule.id = noRuleId then n.rule.flow.tuple = new.rule.flow.tuple
      else n.rule.id = new.rule.id := by
  unfold sameIdentity
  rw [Bool.and_eq_true, beq_iff_eq]
  refine and_congr_right (fun hc => ?_)
  by_cases hn : new.rule.classifier.isFlowKeyed = true ∧ new.rule.id = noRuleId
  · have hold : n.rule.classifier.isFlowKeyed = true := by rw [hc]; exact hn.1
    rw [if_pos hn, if_pos (by simpa using hn), tuple?_of_flowKeyed hold, tuple?_of_flowKeyed hn.1, beq_iff_eq,
      Option.some.injEq]
  · rw [if_neg hn, if_neg (by simpa using hn), beq_iff_eq]

theorem sameIdentity_self (n : Node) : n.sameIdentity n = true := by
  rw [sameIdentity_iff]
  refine ⟨rfl, ?_⟩
  split <;> rfl

end Node

namespace Store

theorem findAlong_of_keyed {sel : Selector} {c : Classifier} (hk : sel.isKeyed c = true) (s : Store) (order : Index) :
    s.findAlong order sel c = (s.index.chain sel.key).find? (sel.names c) := by
  cases sel with
  | id id =>
    have hc : c.isFlowKeyed = false := by simpa [Selector.isKeyed] using hk
    unfold findAlong
    simp only [hc]
    rfl
  | flow t => rfl

/-- A flow-keyed rule that is named by its id is looked for under every key. -/
theorem findAlong_of_unkeyed {id : UInt32} {c : Classifier} (hk : (Selector.id id).isKeyed c = false) (s : Store)
    (order : Index) :
    s.findAlong order (.id id) c = if id = noRuleId then none else order.nodes.find? ((Selector.id id).names c) := by
  have hc : c.isFlowKeyed = true := by simpa [Selector.isKeyed] using hk
  simp only [findAlong, hc, if_true]
  rfl

theorem find_of_keyed {sel : Selector} {c : Classifier} (hk : sel.isKeyed c = true) (s : Store) :
    s.find sel c = (s.index.chain sel.key).find? (sel.names c) := findAlong_of_keyed hk s s.index

theorem find_of_unkeyed {id : UInt32} {c : Classifier} (hk : (Selector.id id).isKeyed c = false) (s : Store) :
    s.find (.id id) c = if id = noRuleId then none else s.index.nodes.find? ((Selector.id id).names c) :=
  findAlong_of_unkeyed hk s s.index

namespace Valid

variable {s : Store} (h : Valid s)
include h

/-- **What is found is stored and is what was named.** -/
theorem of_find {sel : Selector} {c : Classifier} {n : Node} (hf : s.find sel c = some n) :
    n ∈ s.nodes ∧ sel.names c n = true := by
  by_cases hk : sel.isKeyed c = true
  · rw [find_of_keyed hk] at hf
    exact ⟨(h.mem_chain.1 (List.mem_of_find?_eq_some hf)).1, List.find?_some hf⟩
  · cases sel with
    | flow t => exact absurd rfl hk
    | id id =>
      rw [find_of_unkeyed (Bool.eq_false_iff.2 hk)] at hf
      split at hf
      · cases hf
      · exact ⟨h.perm.mem_iff.1 (List.mem_of_find?_eq_some hf), List.find?_some hf⟩

/-- **Nothing is found exactly when nothing stored is named.** -/
theorem find_eq_none_iff {sel : Selector} {c : Classifier} (hk : sel.isKeyed c = true) :
    s.find sel c = none ↔ ∀ n ∈ s.nodes, sel.names c n = false := by
  rw [find_of_keyed hk, List.find?_eq_none]
  constructor
  · intro hn n hns
    by_contra hname
    have hname : sel.names c n = true := by simpa using hname
    exact hn n (h.mem_chain.2 ⟨hns, Node.key_of_names hk hname⟩) hname
  · intro hn n hns
    rw [hn n (h.mem_chain.1 hns).1]
    decide

/-- An id that a caller gave is looked for under every key that it may be stored under. -/
theorem find_id_eq_none_iff {i : UInt32} (hi : i ≠ noRuleId) {c : Classifier} :
    s.find (.id i) c = none ↔ ∀ n ∈ s.nodes, (Selector.id i).names c n = false := by
  by_cases hk : (Selector.id i).isKeyed c = true
  · exact h.find_eq_none_iff hk
  · rw [find_of_unkeyed (Bool.eq_false_iff.2 hk), if_neg hi, List.find?_eq_none]
    exact ⟨fun hn n hns => Bool.eq_false_iff.2 (hn n (h.perm.mem_iff.2 hns)),
      fun hn n hns => Bool.eq_false_iff.1 (hn n (h.perm.mem_iff.1 hns))⟩

theorem of_findSame {n old : Node} (hf : s.findSame n = some old) :
    old ∈ s.nodes ∧ old.key = n.key ∧ old.sameIdentity n = true := by
  unfold findSame at hf
  obtain ⟨hs, hk⟩ := h.mem_chain.1 (List.mem_of_find?_eq_some hf)
  exact ⟨hs, hk, by simpa using List.find?_some hf⟩

theorem findSame_eq_none_iff (n : Node) :
    s.findSame n = none ↔ ∀ m ∈ s.nodes, m.key = n.key → m.sameIdentity n = false := by
  unfold findSame
  rw [List.find?_eq_none]
  constructor
  · intro hn m hm hk
    simpa using hn m (h.mem_chain.2 ⟨hm, hk⟩)
  · intro hn m hm
    obtain ⟨hms, hk⟩ := h.mem_chain.1 hm
    rw [hn m hms hk]
    decide

end Valid

end Store
end TrafficRules
