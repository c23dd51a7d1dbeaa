import TrafficRules.Proofs.Table.Run
/-!
# Beside — what stands beside the rule that is changed

Two stores agree on a kind of nodes when evaluation and every chain show the same nodes of the kind in the same order
(`Store.AgreeOn`): whatever looks for nodes of the kind finds the same in both.  A node that comes, in the place of
another or not, leaves every kind alone that neither of the two is of (`AgreeOn.put`), and nodes that go leave every other
kind alone (`AgreeOn.of_filter`).  So a change of the rules of one family agrees on the nodes of the other families, with
which it shares buckets and chains (`step_agreeOn`).
-/
namespace TrafficRules

/-- The family a change is about: that of the rule that comes, goes or is looked for, or the family flushed. -/
def Call.family? : Call → Option Classifier
  | .add r => some r.classifier
  | .delete _ c => some c
  | .flush c => c
  | _ => none

namespace Store

/-- Evaluation and every chain show the same nodes of a kind, in the same order. -/
structure AgreeOn (p : Node → Bool) (s s' : Store) : Prop where
  nodes : s'.nodes.filter p = s.nodes.filter p
  chain : ∀ k, (s'.index.chain k).filter p = (s.index.chain k).filter p

namespace AgreeOn

variable {p : Node → Bool} {s s' : Store}

theorem refl (p : Node → Bool) (s : Store) : AgreeOn p s s := ⟨rfl, fun _ => rfl⟩

theorem of_filter (hs : s.Valid) {q : Node → Bool} (hn : s'.nodes = s.nodes.filter q)
    (hc : ∀ k, s'.index.chain k = (s.index.chain k).filter q) (hq : ∀ m ∈ s.nodes, p m = true → q m = true) :
    AgreeOn p s s' := by
  constructor
  · rw [hn]
    exact Node.filter_filter_of_imp hq
  · intro k
    rw [hc]
    exact Node.filter_filter_of_imp fun m hm => hq m (hs.mem_chain.1 hm).1

theorem insert (hs : s.Valid) {n : Node} (hn : p n = false) : AgreeOn p s (s.insert n) := by
  constructor
  · rw [hs.nodes_insert, Node.filter_placeIn_of_neg hn]
  · intro k
    rw [hs.chain_insert]
    split
    · rename_i hk
      rw [hk, List.filter_append, List.filter_cons_of_neg (Bool.eq_false_iff.1 hn), List.filter_nil, List.append_nil]
    · rfl

theorem replace (hs : s.Valid) {old n : Node} (ho : old ∈ s.nodes) (hold : p old = false) (hn : p n = false) :
    AgreeOn p s (s.replace old n) := by
  have hkind : ∀ m ∈ s.nodes, m.is old = true → p m = false := fun m hm his => by
    rw [hs.distinct.eq_of_serial hm ho ((Node.is_iff _ _).1 his), hold]
  -- evaluation and each chain hold the old node once or not at all, and a replacement is the same either way
  have hreplaced : ∀ ns : List Node, (∀ m ∈ ns, m ∈ s.nodes) → (Node.replaceIn old n ns).filter p = ns.filter p := by
    intro ns hns
    rw [Node.filter_replaceIn p ns fun m hm his => by rw [hkind m (hns m hm) his, hn], hn]
    rfl
  constructor
  · rw [hs.nodes_replace ho]
    split
    · exact hreplaced _ fun _ hm => hm
    · rw [Node.filter_placeIn_of_neg hn]
      refine Node.filter_filter_of_imp fun m hm hpm => ?_
      rw [Bool.not_eq_true', Bool.eq_false_iff]
      intro his
      rw [hkind m hm his] at hpm
      cases hpm
  · intro k
    rw [hs.chain_replace ho]
    exact hreplaced _ fun m hm => (hs.mem_chain.1 hm).1

/-- **A node that comes leaves alone what neither it nor the one it stands for is.** -/
theorem put (hs : s.Valid) {n : Node} (hn : p n = false) (hold : ∀ old, s.findSame n = some old → p old = false) :
    AgreeOn p s (s.put n) := by
  unfold Store.put
  cases hf : s.findSame n with
  | none => exact insert hs hn
  | some old => exact replace hs (hs.of_findSame hf).1 (hold old hf) hn

section Searches

variable (h : AgreeOn p s s')
include h

theorem find?_nodes {q : Node → Bool} (hq : ∀ n, q n = true → p n = true) : s'.nodes.find? q = s.nodes.find? q :=
  Node.find?_eq_of_filter hq h.nodes

theorem find?_chain {q : Node → Bool} (hq : ∀ n, q n = true → p n = true) (k : UInt32) :
    (s'.index.chain k).find? q = (s.index.chain k).find? q :=
  Node.find?_eq_of_filter hq (h.chain k)

theorem find {sel : Selector} {c : Classifier} (hk : sel.isKeyed c = true)
    (hp : ∀ n, sel.names c n = true → p n = true) : s'.find sel c = s.find sel c := by
  rw [find_of_keyed hk, find_of_keyed hk]
  exact h.find?_chain hp sel.key

end Searches

end AgreeOn

theorem spared_some_iff {c : Classifier} {n : Node} : spared (some c) n = true ↔ n.rule.classifier ≠ c := by
  rw [spared, bne_iff_ne]

theorem spared_some_eq_false_iff {c : Classifier} {n : Node} : spared (some c) n = false ↔ n.rule.classifier = c := by
  rw [Bool.eq_false_iff, Ne, spared_some_iff, not_not]

end Store

namespace Table

theorem query_agrees {t t' : Table} (h : Valid t) (h' : Valid t') {p : Node → Bool} (ha : Store.AgreeOn p t.store t'.store)
    {sel : Selector} {c : Classifier} (hk : sel.isKeyed c = true) (hp : ∀ n, sel.names c n = true → p n = true) (r : Rule) :
    t'.query sel c = .ok r ↔ t.query sel c = .ok r := by
  rw [query_eq_ok_iff h, query_eq_ok_iff h', ha.find hk hp]

theorem step_settings {call : Call} {c : Classifier} (hc : call.family? = some c) (t : Table) :
    (t.step call).1.config = t.config ∧ (t.step call).1.plugins = t.plugins := by
  cases call with
  | add r => exact (IsChange.add r).settings t
  | delete sel c => exact (IsChange.delete sel c).settings t
  | flush c => exact (IsChange.flush c).settings t
  | _ => cases hc

/-- **A change of one family leaves the nodes of the others alone**, under whatever key they share with its own. -/
theorem step_agreeOn {t : Table} (h : Reachable t) {call : Call} {c : Classifier} (hc : call.family? = some c) :
    Store.AgreeOn (Store.spared (some c)) t.store (t.step call).1.store := by
  have hs := h.valid.store
  cases call with
  | add r =>
    obtain rfl : r.classifier = c := Option.some.inj hc
    show Store.AgreeOn _ t.store (t.add r).table.store
    rcases t.add_cases r with ⟨e, -, ht⟩ | ⟨-, hput, -⟩
    · rw [ht]
      exact .refl _ _
    · rw [hput]
      refine .put hs (Store.spared_some_eq_false_iff.2 rfl) fun old hf => ?_
      obtain ⟨-, -, hsame⟩ := hs.of_findSame hf
      exact Store.spared_some_eq_false_iff.2 ((Node.sameIdentity_iff _ _).1 hsame).1
  | delete sel d =>
    obtain rfl : d = c := Option.some.inj hc
    show Store.AgreeOn _ t.store (t.delete sel d).table.store
    rcases t.delete_cases sel d with ⟨e, -, ht⟩ | ⟨n, hf, -⟩
    · rw [ht]
      exact .refl _ _
    · obtain ⟨hn, hname⟩ := hs.of_find hf
      obtain ⟨-, hnodes, hchains⟩ := delete_of_found h.valid hf
      refine .of_filter hs hnodes hchains fun m hm hspared => ?_
      rw [Bool.not_eq_true', Node.is_eq_false_iff]
      intro hserial
      obtain rfl := hs.distinct.eq_of_serial hm hn hserial
      exact Store.spared_some_iff.1 hspared (Node.classifier_of_names hname)
  | flush d =>
    obtain rfl : d = some c := hc
    show Store.AgreeOn _ t.store (t.flush (some c)).table.store
    rcases t.flush_cases (some c) with ⟨-, -, ht⟩ | ⟨-, hstore, -⟩
    · rw [ht]
      exact .refl _ _
    · obtain ⟨hnodes, hchains, -⟩ := hs.removeFamily (some c)
      rw [hstore]
      exact .of_filter hs hnodes hchains fun _ _ hspared => hspared
  | _ => cases hc

end Table
end TrafficRules
