import Mathlib.Algebra.BigOperators.Group.List.Basic
import Mathlib.Algebra.GroupWithZero.Nat
import TrafficRules.Proofs.Table.Change
/-!
# Reachable — the tables that changes lead to

`Reachable` is every table that additions, deletions and flushes with any arguments lead to from a fresh one, whatever
they answer, with anything counted and any plugins registered in between.  In all of them the store is valid and every
stored node has a serial that was given out (`Reachable.valid`): buckets and index hold the same nodes, each of them
once, and the count of a store is never lowered below zero (`buckets_and_index_in_step`).
-/
namespace TrafficRules

theorem Classifier.sum_countP {α : Type} (family : α → Classifier) (p : α → Bool) (xs : List α) :
    (Classifier.all.map fun c => xs.countP fun x => family x == c && p x).sum = xs.countP p := by
  induction xs with
  | nil => rfl
  | cons x xs ih =>
    have hone : (Classifier.all.map fun c => if (family x == c && p x) = true then 1 else 0).sum =
        if p x = true then 1 else 0 := by
      cases family x <;> cases p x <;> rfl
    simp only [List.countP_cons, List.sum_map_add, ih, hone]

namespace Table

/-- The tables a sequence of changes leads to. -/
inductive Reachable : Table → Prop
  | fresh (config : TableConfig) (plugins : Plugins) : Reachable { config, plugins }
  | add {t : Table} (r : Rule) : Reachable t → Reachable (t.add r).table
  | delete {t : Table} (sel : Selector) (c : Classifier) : Reachable t → Reachable (t.delete sel c).table
  | flush {t : Table} (c : Option Classifier) : Reachable t → Reachable (t.flush c).table
  | count {t : Table} (x : Tally) : Reachable t → Reachable (t.tally x)
  | plug {t : Table} (plugins : Plugins) : Reachable t → Reachable { t with plugins }

/-- The store is valid, and the next serial is new. -/
structure Valid (t : Table) : Prop where
  store : t.store.Valid
  serials : ∀ n ∈ t.store.nodes, n.serial < t.nextSerial

namespace Valid

variable {t : Table} (h : Valid t)
include h

theorem incoming_fresh (r : Rule) : ∀ n ∈ t.store.nodes, n.serial ≠ (t.incoming r).serial :=
  fun n hn => Nat.ne_of_lt (h.serials n hn)

theorem add (r : Rule) : Valid (t.add r).table := by
  rcases t.add_cases r with ⟨e, -, ht⟩ | ⟨-, hs, hn⟩
  · rw [ht]
    exact h
  · constructor
    · rw [hs]
      exact h.store.put (Node.precedence_ofRule _ r) (h.incoming_fresh r)
    · rw [hs, hn]
      intro m hm
      rcases h.store.mem_put hm with rfl | hm
      · exact Nat.lt_succ_self _
      · exact Nat.lt_succ_of_lt (h.serials m hm)

theorem delete (sel : Selector) (c : Classifier) : Valid (t.delete sel c).table := by
  rcases t.delete_cases sel c with ⟨e, -, ht⟩ | ⟨n, hf, -, hs, hn⟩
  · rw [ht]
    exact h
  · obtain ⟨s', hr, hnodes, -, -, hv⟩ := h.store.remove? (h.store.of_find hf).1
    rw [hr, Option.getD_some] at hs
    constructor
    · rw [hs]
      exact hv
    · rw [hs, hn, hnodes]
      exact fun m hm => h.serials m (Node.mem_removeFrom.1 hm).1

theorem flush (c : Option Classifier) : Valid (t.flush c).table := by
  rcases t.flush_cases c with ⟨-, -, ht⟩ | ⟨-, hs, hn⟩
  · rw [ht]
    exact h
  · obtain ⟨hnodes, -, -, hv⟩ := h.store.removeFamily c
    constructor
    · rw [hs]
      exact hv
    · rw [hs, hn, hnodes]
      exact fun m hm => h.serials m (List.mem_filter.1 hm).1

end Valid

theorem Reachable.valid {t : Table} (h : Reachable t) : Valid t := by
  induction h with
  | fresh config plugins =>
    refine ⟨Store.valid_empty, fun n hn => ?_⟩
    have hn : n ∈ Store.empty.nodes := hn
    rw [Store.nodes_empty] at hn
    cases hn
  | add r _ ih => exact ih.add r
  | delete sel c _ ih => exact ih.delete sel c
  | flush c _ ih => exact ih.flush c
  | count x _ ih => exact ⟨ih.store, ih.serials⟩
  | plug plugins _ ih => exact ⟨ih.store, ih.serials⟩

/-! ## What a reachable store looks like -/

/-- **The rules go down in precedence.** -/
theorem Reachable.descending {t : Table} (h : Reachable t) : t.rules.Pairwise fun a b => b.precedence ≤ a.precedence := by
  have hranked := h.valid.store.ranked
  refine List.pairwise_map.2 (hranked.pairwise_nodes.imp_of_mem fun {a b} ha hb hle => ?_)
  exact (hranked.precedence_le_iff ha (hranked.precedence_eq hb)).2 hle

theorem filter_rules (t : Table) (p : Rule → Bool) :
    t.rules.filter p = (t.store.nodes.filter fun n => p n.rule).map (·.rule) := List.filter_map

theorem Valid.size_eq_length {t : Table} (h : Valid t) : t.size = t.rules.length := by
  unfold size rules
  rw [h.store.count, List.length_map]

theorem length_eq_sum_families (ns : List Node) :
    ns.length = (Classifier.all.map fun c => (ns.filter (·.rule.classifier == c)).length).sum := by
  simpa [← List.countP_eq_length_filter] using (Classifier.sum_countP (·.rule.classifier) (fun _ => true) ns).symm

/-- **Buckets and index in step**: 255 buckets of one precedence each, chains of one key each and none of them empty,
every node once in either, and a count that is their number and is never lowered below zero. -/
theorem buckets_and_index_in_step {t : Table} (h : Reachable t) :
    t.store.buckets.toList.length = 255 ∧
    (∀ p : Fin Rule.precedenceCount, ∀ n ∈ t.store.buckets.get p, n.rule.precedence.toNat = p.val) ∧
    (∀ n ∈ t.store.nodes, n.rule.precedence.toNat < t.store.buckets.toList.length ∧ n ∈ t.store.buckets.get n.rule.bucket) ∧
    (t.store.index.map (·.1)).Nodup ∧
    (∀ e ∈ t.store.index, e.2 ≠ [] ∧ ∀ n ∈ e.2,
      e.1 = if n.rule.classifier = .ifli then n.rule.flow.tuple.hash else n.rule.id) ∧
    (∀ n ∈ t.store.nodes, t.store.nodes.countP (·.is n) = 1) ∧
    (∀ n ∈ t.store.index.nodes, t.store.index.nodes.countP (·.is n) = 1) ∧
    (∀ n, n ∈ t.store.nodes ↔ n ∈ t.store.index.nodes) ∧
    t.size = t.store.nodes.length ∧ t.size = t.rules.length ∧
    t.size = (Classifier.all.map fun c => (t.store.family c).length).sum ∧
    (∀ n ∈ t.store.nodes, 1 ≤ t.size ∧ ∃ s, t.store.remove? n = some s ∧ s.count = t.size - 1) ∧
    (∀ c, (t.store.removeFamily c).2 ≤ t.size ∧
      (t.store.removeFamily c).1.count = t.size - (t.store.removeFamily c).2) := by
  have hv := h.valid.store
  have hlen : t.size = t.store.nodes.length := hv.count
  refine ⟨by rw [Vector.length_toList], hv.ranked, fun n hn => ⟨?_, hv.ranked.mem_bucket hn⟩, ?_,
    fun e he => ⟨hv.index.nonempty e he, fun n hn => ?_⟩, fun n hn => hv.distinct.countP_is hn, fun n hn => hv.distinct_index.countP_is hn,
    fun n => hv.perm.mem_iff.symm, hlen, ?_, ?_, fun n hn => ?_, fun c => ?_⟩
  · rw [Vector.length_toList, hv.ranked _ n (hv.ranked.mem_bucket hn)]
    exact n.rule.bucket.isLt
  · exact List.pairwise_map.2 (hv.index.ascending.imp UInt32.ne_of_lt)
  · rw [← hv.index.keyed e he n hn]
    cases hc : n.rule.classifier <;> simp [Node.key, Rule.key, Rule.flowTuple?, hc, Classifier.isFlowKeyed]
  · rw [hlen, rules, List.length_map]
  · rw [hlen]
    exact length_eq_sum_families t.store.nodes
  · obtain ⟨s, hs, -, -, hc, -⟩ := hv.remove? hn
    have hc : s.count + 1 = t.size := hc
    exact ⟨by omega, s, hs, by omega⟩
  · obtain ⟨-, -, hc, -⟩ := hv.removeFamily c
    have hc : (t.store.removeFamily c).2 + (t.store.removeFamily c).1.count = t.size := hc
    exact ⟨by omega, by omega⟩

/-- Rules of three families under one key, two of them of one precedence until the first is added again below, and a
rule that came and went. -/
def underOneKey : Table :=
  let t := (({} : Table).add { id := 2, classifier := .scs, precedence := 7 }).table
  let t := (t.add { id := 2, classifier := .sawf, precedence := 7 }).table
  let t := (t.add { classifier := .ifli, flow := { srcPort := some 2 } }).table
  let t := (t.add { id := 9, classifier := .mesh }).table
  let t := (t.add { id := 2, classifier := .scs, precedence := 255 }).table
  (t.delete (.id 9) .mesh).table

theorem reachable_underOneKey : Reachable underOneKey :=
  .delete _ _ (.add _ (.add _ (.add _ (.add _ (.add _ (.fresh {} {}))))))

theorem buckets_and_index_in_step_underOneKey :
    (∀ p : Fin Rule.precedenceCount, ∀ n ∈ underOneKey.store.buckets.get p, n.rule.precedence.toNat = p.val) ∧
    underOneKey.size = underOneKey.store.nodes.length ∧ underOneKey.store.nodes.map (·.serial) = [1, 2, 4] ∧
    underOneKey.store.index.map (fun e => (e.1, e.2.map (·.serial))) = [(2, [4, 1, 2])] := by
  obtain ⟨-, hranked, -, -, -, -, -, -, hsize, -⟩ := buckets_and_index_in_step reachable_underOneKey
  exact ⟨hranked, hsize, by decide +kernel, by decide +kernel⟩

end Table
end TrafficRules
