import Mathlib.Data.List.Perm.Basic
import TrafficRules.Proofs.Table.Beside
import TrafficRules.Proofs.Table.Identity
/-!
# Left — what deletions by id leave

A rule of a family named by id is deleted by its id.  The nodes that are left are those of a kind, in their order, in the
store and in every chain (`Table.Left`): the kind of the other nodes after one deletion (`left_delete`), and after the
deletion of every rule of a kind, in whatever order, the kind of all the others (`left_deleteEach_perm`).  The kind says
all there is to say of the store (`Left.store_eq`).
-/
namespace TrafficRules
namespace Table

/-- What is left of the nodes of a table when those of a kind stay. -/
structure Left (q : Node → Bool) (t t' : Table) : Prop where
  reachable : Reachable t'
  nodes : t'.store.nodes = t.store.nodes.filter q
  chain : ∀ k, t'.store.index.chain k = (t.store.index.chain k).filter q
  plugins : t'.plugins = t.plugins

namespace Left

variable {t t' t'' : Table} {q q' : Node → Bool}

theorem refl (h : Reachable t) : Left (fun _ => true) t t :=
  ⟨h, (List.filter_true _).symm, fun _ => (List.filter_true _).symm, rfl⟩

theorem trans (h : Left q t t') (h' : Left q' t' t'') : Left (fun m => q m && q' m) t t'' := by
  have hfilter : ∀ ns : List Node, (ns.filter q).filter q' = ns.filter fun m => q m && q' m := fun ns => by
    rw [List.filter_filter]
    exact List.filter_congr fun m _ => Bool.and_comm _ _
  refine ⟨h'.reachable, ?_, fun k => ?_, h'.plugins.trans h.plugins⟩
  · rw [h'.nodes, h.nodes, hfilter]
  · rw [h'.chain, h.chain, hfilter]

theorem congr (ht : Reachable t) (h : Left q t t') (hq : ∀ n ∈ t.store.nodes, q n = q' n) : Left q' t t' := by
  refine ⟨h.reachable, ?_, fun k => ?_, h.plugins⟩
  · rw [h.nodes]
    exact List.filter_congr hq
  · rw [h.chain]
    exact List.filter_congr fun n hn => hq n (ht.valid.store.mem_chain.1 hn).1

theorem rules {p : Rule → Bool} (h : Left (fun n => p n.rule) t t') : t'.rules = t.rules.filter p := by
  rw [filter_rules, ← h.nodes]
  rfl

theorem agreeOn (ht : Reachable t) (h : Left q t t') : Store.AgreeOn q t.store t'.store :=
  .of_filter ht.valid.store h.nodes h.chain fun _ _ hq => hq

theorem store_eq (h : Left q t t') (h' : Left q t t'') : t'.store = t''.store :=
  h.reachable.valid.store.ext h'.reachable.valid.store (h.nodes.trans h'.nodes.symm)
    fun k => (h.chain k).trans (h'.chain k).symm

theorem index (ht : Reachable t) (h : Left q t t') : t'.store.index = t.store.index.filter q := by
  have hi := ht.valid.store.index
  refine Index.ext_chain h.reachable.valid.store.index (Index.wellFormed_filter q _ hi) fun k => ?_
  rw [h.chain, Index.chain_filter q k _ hi]

/-- A selector of nodes that all stay finds what it found, also one that looks under every key. -/
theorem find (ht : Reachable t) (h : Left q t t') {sel : Selector} {c : Classifier}
    (hq : ∀ n, sel.names c n = true → q n = true) : t'.store.find sel c = t.store.find sel c := by
  by_cases hk : sel.isKeyed c = true
  · exact (h.agreeOn ht).find hk hq
  · cases sel with
    | flow tuple => exact absurd rfl hk
    | id i =>
      have hnodes : t'.store.index.nodes.filter q = t.store.index.nodes.filter q := by
        rw [h.index ht, Index.nodes_filter, List.filter_filter]
        exact List.filter_congr fun n _ => Bool.and_self (q n)
      rw [Store.find_of_unkeyed (Bool.eq_false_iff.2 hk), Store.find_of_unkeyed (Bool.eq_false_iff.2 hk),
        Node.find?_eq_of_filter hq hnodes]

theorem find_eq_none (h : Left q t t') {sel : Selector} {c : Classifier} (hq : ∀ n, sel.names c n = true → q n = false) :
    t'.store.find sel c = none := by
  cases hf : t'.store.find sel c with
  | none => rfl
  | some n =>
    obtain ⟨hn, hname⟩ := h.reachable.valid.store.of_find hf
    rw [h.nodes, List.mem_filter, hq n hname] at hn
    cases hn.2

end Left

/-- Deletions of rules by their ids. -/
def deletions (rs : List Rule) : List Call := rs.map fun r => .delete (.id r.id) r.classifier

/-- The table once rules are deleted by their ids. -/
def deleteEach (rs : List Rule) (t : Table) : Table := (run (deletions rs) t).1

theorem left_delete {t : Table} (h : Reachable t) {n : Node} (hn : n ∈ t.store.nodes)
    (hc : n.rule.classifier.isFlowKeyed = false) :
    (t.delete (.id n.rule.id) n.rule.classifier).result = .ok .deleted ∧
      Left (fun m => !m.is n) t (t.delete (.id n.rule.id) n.rule.classifier).table := by
  obtain ⟨hdeleted, hnodes, hchain⟩ := delete_of_found h.valid (find_of_mem h hn hc)
  exact ⟨hdeleted, h.delete _ _, hnodes, hchain, ((IsChange.delete _ _).settings t).2⟩

theorem left_deleteEach : ∀ (ns : List Node) {t : Table}, Reachable t → Node.Distinct ns →
    (∀ n ∈ ns, n ∈ t.store.nodes ∧ n.rule.classifier.isFlowKeyed = false) →
    (∀ x ∈ (run (deletions (ns.map (·.rule))) t).2, x.answer = .changed (.ok .deleted)) ∧
      Left (fun m => ns.all fun n => !m.is n) t (deleteEach (ns.map (·.rule)) t)
  | [], _, h, _, _ => ⟨fun _ hx => (nomatch hx), .refl h⟩
  | n :: ns, t, h, hd, hns => by
    obtain ⟨hother, hd⟩ := Node.distinct_cons.1 hd
    obtain ⟨hn, hns⟩ := List.forall_mem_cons.1 hns
    obtain ⟨hdeleted, hfirst⟩ := left_delete h hn.1 hn.2
    obtain ⟨hanswers, hrest⟩ := left_deleteEach ns hfirst.reachable hd fun m hm => by
      rw [hfirst.nodes]
      exact ⟨Node.mem_removeFrom.2 ⟨(hns m hm).1, (Node.is_eq_false_iff m n).2 (hother m hm)⟩, (hns m hm).2⟩
    exact ⟨List.forall_mem_cons.2 ⟨congrArg Answer.changed hdeleted, hanswers⟩, hfirst.trans hrest⟩

/-- **Deleting the rules of a kind**, each once, leaves all the others, in their order. -/
theorem left_deleteEach_perm {t : Table} (h : Reachable t) {p : Rule → Bool}
    (hp : ∀ r, p r = true → r.classifier.isFlowKeyed = false) {rs : List Rule} (hrs : rs.Perm (t.rules.filter p)) :
    (∀ x ∈ (run (deletions rs) t).2, x.answer = .changed (.ok .deleted)) ∧
      Left (fun n => !p n.rule) t (deleteEach rs t) := by
  have hd := h.valid.store.distinct
  obtain ⟨ns, rfl, hns⟩ : ∃ ns : List Node, rs = ns.map (·.rule) ∧ ns.Perm (t.store.nodes.filter fun n => p n.rule) := by
    rw [filter_rules] at hrs
    exact (congrFun₂ (List.eq_map_comp_perm Node.rule) rs _).mpr hrs
  have hmem : ∀ n, n ∈ ns ↔ n ∈ t.store.nodes ∧ p n.rule = true := fun n => hns.mem_iff.trans List.mem_filter
  have hdistinct : Node.Distinct ns := Node.Distinct.perm (hd.sublist (List.filter_sublist.map _)) hns.symm
  obtain ⟨hanswers, hleft⟩ := left_deleteEach ns h hdistinct fun n hn => ⟨((hmem n).1 hn).1, hp _ ((hmem n).1 hn).2⟩
  refine ⟨hanswers, hleft.congr h fun m hm => ?_⟩
  rw [Bool.eq_iff_iff, List.all_eq_true, Bool.not_eq_true']
  constructor
  · intro hall
    by_contra hpm
    have hself := hall m ((hmem m).2 ⟨hm, by simpa using hpm⟩)
    simp [Node.is] at hself
  · intro hpm n hn
    obtain ⟨hn, hpn⟩ := (hmem n).1 hn
    rw [Bool.not_eq_true', Node.is_eq_false_iff]
    intro hserial
    rw [hd.eq_of_serial hm hn hserial] at hpm
    rw [hpm] at hpn
    cases hpn

theorem left_deleteEach_filter {t : Table} (h : Reachable t) {p : Rule → Bool}
    (hp : ∀ r, p r = true → r.classifier.isFlowKeyed = false) :
    Left (fun n => !p n.rule) t (deleteEach (t.rules.filter p) t) := (left_deleteEach_perm h hp (List.Perm.refl _)).2

end Table
end TrafficRules
