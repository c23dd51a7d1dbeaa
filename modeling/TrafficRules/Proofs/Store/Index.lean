import Mathlib.Data.List.Nodup
import TrafficRules.Store.Index
/-!
# Index — what an edit of one chain leaves alone

A well-formed index has its keys in ascending order, each once, over chains that hold nodes of their key and never
run empty.  It falls apart at any key (`cut`): the chains below, the one under the key, the chains above.  An edit
of one chain changes the middle only, so its effect on the nodes (`nodes_alter`) and on the chain under a key
(`chain_alter`) is read off the cut.
-/
namespace TrafficRules
namespace Index

structure WellFormed (i : Index) : Prop where
  ascending : i.Pairwise (fun a b => a.1 < b.1)
  nonempty : ∀ e ∈ i, e.2 ≠ []
  keyed : ∀ e ∈ i, ∀ n ∈ e.2, n.key = e.1

theorem wellFormed_nil : WellFormed [] := ⟨List.Pairwise.nil, by simp, by simp⟩

theorem WellFormed.tail {e : UInt32 × List Node} {i : Index} (h : WellFormed (e :: i)) : WellFormed i :=
  ⟨h.ascending.of_cons, fun x hx => h.nonempty x (List.mem_cons_of_mem _ hx),
    fun x hx => h.keyed x (List.mem_cons_of_mem _ hx)⟩

theorem put_nil (key : UInt32) (i : Index) : put key [] i = i := rfl

theorem put_cons (key : UInt32) (n : Node) (ns : List Node) (i : Index) :
    put key (n :: ns) i = (key, n :: ns) :: i := rfl

theorem put_of_ne_nil {key : UInt32} {ns : List Node} (h : ns ≠ []) (i : Index) : put key ns i = (key, ns) :: i := by
  cases ns with
  | nil => exact absurd rfl h
  | cons n ns => rfl

theorem chain_of_forall_ne {key : UInt32} : ∀ (i : Index), (∀ e ∈ i, e.1 ≠ key) → i.chain key = []
  | [], _ => rfl
  | (k, ns) :: i, h => by
    have hk : k ≠ key := h (k, ns) List.mem_cons_self
    rw [chain, if_neg hk, chain_of_forall_ne i (fun e he => h e (List.mem_cons_of_mem _ he))]

/-- **An index, cut at a key**: the chains below it, its own and the chains above, and what an edit of its own makes
of them. -/
theorem cut (key : UInt32) : ∀ (i : Index), WellFormed i → ∃ A B, (∀ e ∈ A, e.1 < key) ∧ (∀ e ∈ B, key < e.1) ∧
    i = A ++ put key (i.chain key) B ∧ ∀ f, i.alter f key = A ++ put key (f (i.chain key)) B
  | [], _ => ⟨[], [], by simp, by simp, rfl, fun _ => rfl⟩
  | (k, ns) :: i, h => by
    have habove : ∀ e ∈ i, k < e.1 := fun e he => List.rel_of_pairwise_cons h.ascending he
    by_cases hkey : k = key
    · subst hkey
      have hself : chain ((k, ns) :: i) k = ns := by rw [chain, if_pos rfl]
      refine ⟨[], i, by simp, habove, ?_, fun f => ?_⟩
      · rw [hself, put_of_ne_nil (h.nonempty _ List.mem_cons_self)]
        rfl
      · rw [hself, alter, if_neg (UInt32.lt_irrefl k), if_pos rfl]
        rfl
    rcases UInt32.lt_or_lt_of_ne hkey with hgt | hlt
    · obtain ⟨A, B, hA, hB, hi, hf⟩ := cut key i h.tail
      have hrest : chain ((k, ns) :: i) key = chain i key := by rw [chain, if_neg hkey]
      refine ⟨(k, ns) :: A, B, ?_, hB, ?_, fun f => ?_⟩
      · intro e he
        rcases List.mem_cons.1 he with rfl | he
        · exact hgt
        · exact hA e he
      · rw [hrest, List.cons_append, ← hi]
      · rw [hrest, alter, if_neg (UInt32.lt_asymm hgt), if_neg hkey, hf, List.cons_append]
    · have hall : ∀ e ∈ (k, ns) :: i, key < e.1 := by
        intro e he
        rcases List.mem_cons.1 he with rfl | he
        · exact hlt
        · exact UInt32.lt_trans hlt (habove e he)
      have hnone : chain ((k, ns) :: i) key = [] := chain_of_forall_ne _ (fun e he => (UInt32.ne_of_lt (hall e he)).symm)
      refine ⟨[], (k, ns) :: i, by simp, hall, by rw [hnone]; rfl, fun f => ?_⟩
      rw [hnone, alter, if_pos hlt]
      rfl

/-- **An index is its chains.** -/
theorem ext_chain : ∀ {i j : Index}, WellFormed i → WellFormed j → (∀ k, i.chain k = j.chain k) → i = j
  | [], [], _, _, _ => rfl
  | [], (k, ns) :: j, _, hj, h => by
    have hk := h k
    rw [chain, chain, if_pos rfl] at hk
    exact absurd hk.symm (hj.nonempty (k, ns) List.mem_cons_self)
  | (k, ns) :: i, [], hi, _, h => by
    have hk := h k
    rw [chain, chain, if_pos rfl] at hk
    exact absurd hk (hi.nonempty (k, ns) List.mem_cons_self)
  | (k, ns) :: i, (l, ms) :: j, hi, hj, h => by
    have hbehind : ∀ {k : UInt32} {ns : List Node} {i : Index}, WellFormed ((k, ns) :: i) → i.chain k = [] :=
      fun hi => chain_of_forall_ne _ fun e he => (UInt32.ne_of_lt (List.rel_of_pairwise_cons hi.ascending he)).symm
    -- a key below the first of either index has no chain in it
    have hfirst : ∀ {k l : UInt32} {ns ms : List Node} {i j : Index}, WellFormed ((k, ns) :: i) → WellFormed ((l, ms) :: j) →
        (∀ key, chain ((k, ns) :: i) key = chain ((l, ms) :: j) key) → ¬ k < l := by
      intro k l ns ms i j hi hj h hlt
      have hk := h k
      rw [chain, if_pos rfl, chain_of_forall_ne ((l, ms) :: j)] at hk
      · exact hi.nonempty (k, ns) List.mem_cons_self hk
      · intro e he
        rcases List.mem_cons.1 he with rfl | he
        · exact (UInt32.ne_of_lt hlt).symm
        · exact (UInt32.ne_of_lt (UInt32.lt_trans hlt (List.rel_of_pairwise_cons hj.ascending he))).symm
    obtain rfl : k = l := UInt32.le_antisymm (UInt32.not_lt.1 (hfirst hj hi fun key => (h key).symm))
      (UInt32.not_lt.1 (hfirst hi hj h))
    have hk := h k
    rw [chain, chain, if_pos rfl, if_pos rfl] at hk
    rw [hk, ext_chain hi.tail hj.tail fun key => ?_]
    by_cases hkey : k = key
    · rw [← hkey, hbehind hi, hbehind hj]
    · have hrest := h key
      rwa [chain, chain, if_neg hkey, if_neg hkey] at hrest

/-! ## An index around a chain -/

theorem nodes_append (i j : Index) : nodes (i ++ j) = nodes i ++ nodes j := List.flatMap_append ..

theorem nodes_put (key : UInt32) (ns : List Node) (i : Index) : nodes (put key ns i) = ns ++ nodes i := by
  cases ns <;> rfl

theorem mem_put {key : UInt32} {ns : List Node} {i : Index} {e : UInt32 × List Node} :
    e ∈ put key ns i ↔ ns ≠ [] ∧ e = (key, ns) ∨ e ∈ i := by
  cases ns with
  | nil => simp [put_nil]
  | cons n ns => simp [put_cons]

theorem chain_append_congr {key : UInt32} {X Y : Index} (h : X.chain key = Y.chain key) : ∀ (A : Index),
    chain (A ++ X) key = chain (A ++ Y) key
  | [] => h
  | (k, ns) :: A => by rw [List.cons_append, List.cons_append, chain, chain, chain_append_congr h A]

theorem chain_append_of_ne {key : UInt32} : ∀ (A X : Index), (∀ e ∈ A, e.1 ≠ key) → chain (A ++ X) key = X.chain key
  | [], _, _ => rfl
  | (k, ns) :: A, X, h => by
    have hk : k ≠ key := h (k, ns) List.mem_cons_self
    rw [List.cons_append, chain, if_neg hk, chain_append_of_ne A X (fun e he => h e (List.mem_cons_of_mem _ he))]

theorem chain_put_self {key : UInt32} {B : Index} (hB : ∀ e ∈ B, key < e.1) (ns : List Node) :
    chain (put key ns B) key = ns := by
  cases ns with
  | nil => exact chain_of_forall_ne B (fun e he => (UInt32.ne_of_lt (hB e he)).symm)
  | cons n ns => rw [put_cons, chain, if_pos rfl]

theorem chain_put_ne {key k : UInt32} (h : k ≠ key) (ns : List Node) (B : Index) : chain (put key ns B) k = B.chain k := by
  cases ns with
  | nil => rfl
  | cons n ns => rw [put_cons, chain, if_neg (Ne.symm h)]

theorem wellFormed_around {A B : Index} {key : UInt32} (ns : List Node) {ms : List Node} (hA : ∀ e ∈ A, e.1 < key)
    (hB : ∀ e ∈ B, key < e.1) (h : WellFormed (A ++ put key ns B)) (hk : ∀ n ∈ ms, n.key = key) :
    WellFormed (A ++ put key ms B) := by
  have hAB : WellFormed A ∧ WellFormed B := by
    have hBsub : ∀ e ∈ B, e ∈ A ++ put key ns B := fun e he => List.mem_append_right _ (mem_put.2 (Or.inr he))
    have hasc := List.pairwise_append.1 h.ascending
    refine ⟨⟨hasc.1, fun e he => h.nonempty e (List.mem_append_left _ he),
      fun e he => h.keyed e (List.mem_append_left _ he)⟩, ⟨?_, fun e he => h.nonempty e (hBsub e he),
      fun e he => h.keyed e (hBsub e he)⟩⟩
    cases ns with
    | nil => exact hasc.2.1
    | cons n ns => exact hasc.2.1.of_cons
  refine ⟨List.pairwise_append.2 ⟨hAB.1.ascending, ?_, ?_⟩, ?_, ?_⟩
  · cases ms with
    | nil => exact hAB.2.ascending
    | cons m ms => exact List.Pairwise.cons hB hAB.2.ascending
  · intro a ha b hb
    rcases mem_put.1 hb with ⟨-, rfl⟩ | hb
    · exact hA a ha
    · exact UInt32.lt_trans (hA a ha) (hB b hb)
  · intro e he
    rcases List.mem_append.1 he with he | he
    · exact hAB.1.nonempty e he
    · rcases mem_put.1 he with ⟨hne, rfl⟩ | he
      · exact hne
      · exact hAB.2.nonempty e he
  · intro e he
    rcases List.mem_append.1 he with he | he
    · exact hAB.1.keyed e he
    · rcases mem_put.1 he with ⟨-, rfl⟩ | he
      · exact hk
      · exact hAB.2.keyed e he

/-! ## An edit of one chain -/

section Alter

variable {i : Index} (h : WellFormed i) (f : List Node → List Node) (key : UInt32)
include h

theorem wellFormed_alter (hk : ∀ n ∈ f (i.chain key), n.key = key) : WellFormed (i.alter f key) := by
  obtain ⟨A, B, hA, hB, hi, hf⟩ := cut key i h
  rw [hf]
  exact wellFormed_around _ hA hB (hi ▸ h) hk

/-- **An edit changes the chain under its key and no other.** -/
theorem chain_alter (k : UInt32) : (i.alter f key).chain k = if k = key then f (i.chain key) else i.chain k := by
  obtain ⟨A, B, hA, hB, hi, hf⟩ := cut key i h
  rw [hf]
  by_cases hk : k = key
  · rw [if_pos hk, hk, chain_append_of_ne A _ (fun e he => UInt32.ne_of_lt (hA e he)), chain_put_self hB]
  · rw [if_neg hk]
    conv => rhs; rw [hi]
    exact chain_append_congr ((chain_put_ne hk _ B).trans (chain_put_ne hk _ B).symm) A

theorem nodes_alter : ∃ A B, i.nodes = A ++ i.chain key ++ B ∧ ∀ f, (i.alter f key).nodes = A ++ f (i.chain key) ++ B := by
  obtain ⟨A, B, -, -, hi, hf⟩ := cut key i h
  refine ⟨nodes A, nodes B, ?_, fun f => ?_⟩
  · conv => lhs; rw [hi]
    rw [nodes_append, nodes_put, List.append_assoc]
  · rw [hf, nodes_append, nodes_put, List.append_assoc]

end Alter

/-! ## The nodes of a family taken away -/

theorem nodes_filter (p : Node → Bool) : ∀ (i : Index), (i.filter p).nodes = i.nodes.filter p
  | [] => rfl
  | (k, ns) :: i => by
    rw [filter, nodes_put, nodes_filter p i]
    exact (List.filter_append ..).symm

theorem key_of_mem_filter {p : Node → Bool} {e : UInt32 × List Node} : ∀ (i : Index), e ∈ i.filter p →
    ∃ d ∈ i, d.1 = e.1
  | (k, ns) :: i, he => by
    rcases mem_put.1 he with ⟨-, rfl⟩ | he
    · exact ⟨(k, ns), List.mem_cons_self, rfl⟩
    · obtain ⟨d, hd, hk⟩ := key_of_mem_filter i he
      exact ⟨d, List.mem_cons_of_mem _ hd, hk⟩

theorem lt_of_mem_filter {p : Node → Bool} {d e : UInt32 × List Node} {i : Index} (h : WellFormed (d :: i))
    (he : e ∈ i.filter p) : d.1 < e.1 := by
  obtain ⟨c, hc, hk⟩ := key_of_mem_filter i he
  rw [← hk]
  exact List.rel_of_pairwise_cons h.ascending hc

theorem wellFormed_filter (p : Node → Bool) : ∀ (i : Index), WellFormed i → WellFormed (i.filter p)
  | [], _ => wellFormed_nil
  | (k, ns) :: i, h => by
    have ih := wellFormed_filter p i h.tail
    rw [filter]
    refine wellFormed_around (A := []) [] (by simp) (fun e he => lt_of_mem_filter h he) ih (fun n hn => ?_)
    exact h.keyed (k, ns) List.mem_cons_self n (List.mem_filter.1 hn).1

theorem chain_filter (p : Node → Bool) (key : UInt32) : ∀ (i : Index), WellFormed i →
    (i.filter p).chain key = (i.chain key).filter p
  | [], _ => rfl
  | (k, ns) :: i, h => by
    rw [filter, chain]
    split
    · rename_i hk
      rw [← hk]
      exact chain_put_self (fun e he => lt_of_mem_filter h he) _
    · rename_i hk
      rw [chain_put_ne (Ne.symm hk), chain_filter p key i h.tail]

/-! ## The nodes under a key -/

theorem mem_nodes {i : Index} {n : Node} : n ∈ i.nodes ↔ ∃ e ∈ i, n ∈ e.2 := List.mem_flatMap

/-- **A chain holds the nodes of its key.** -/
theorem mem_chain {key : UInt32} {n : Node} : ∀ (i : Index), WellFormed i → (n ∈ i.chain key ↔ n ∈ i.nodes ∧ n.key = key)
  | [], _ => by simp [chain, nodes]
  | (k, ns) :: i, h => by
    have hns : ∀ m ∈ ns, m.key = k := h.keyed (k, ns) List.mem_cons_self
    rw [chain, show nodes ((k, ns) :: i) = ns ++ nodes i from rfl, List.mem_append]
    split
    · rename_i hk
      subst hk
      refine ⟨fun hn => ⟨Or.inl hn, hns n hn⟩, fun ⟨hn, hkey⟩ => hn.resolve_right (fun hi => ?_)⟩
      obtain ⟨e, he, hne⟩ := mem_nodes.1 hi
      have hlt : k < e.1 := List.rel_of_pairwise_cons h.ascending he
      exact UInt32.ne_of_lt hlt (hkey ▸ h.tail.keyed e he n hne)
    · rename_i hk
      rw [mem_chain i h.tail]
      refine ⟨fun ⟨hi, hkey⟩ => ⟨Or.inr hi, hkey⟩, fun ⟨hn, hkey⟩ => ⟨hn.resolve_left (fun hm => ?_), hkey⟩⟩
      exact hk ((hns n hm).symm.trans hkey)

end Index
end TrafficRules
