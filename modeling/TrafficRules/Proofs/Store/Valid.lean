import TrafficRules.Proofs.Store.Buckets
import TrafficRules.Proofs.Store.Index
/-!
# Valid — buckets and index in step

In a valid store every node stands in the bucket of its precedence and in the chain of its key, once in each
structure, and the count is the number of nodes.  Each operation of the store is settled here once: what it makes of
the evaluation order and of every chain, and that the store stays valid (`Valid.insert`, `Valid.replace`,
`Valid.remove?`, `Valid.removeFamily`).
-/
namespace TrafficRules
namespace Store

structure Valid (s : Store) : Prop where
  ranked : Ranked s
  index : s.index.WellFormed
  perm : s.index.nodes.Perm s.nodes
  distinct : Node.Distinct s.nodes
  count : s.count = s.nodes.length

theorem nodes_empty : empty.nodes = [] := by
  have hnone : ∀ n, n ∉ empty.nodes := by
    intro n hn
    obtain ⟨p, hp⟩ := mem_nodes.1 hn
    rw [bucket_empty] at hp
    cases hp
  exact List.eq_nil_iff_forall_not_mem.2 hnone

theorem valid_empty : Valid empty :=
  ⟨ranked_empty, Index.wellFormed_nil, by rw [nodes_empty]; exact List.Perm.refl _,
    by rw [nodes_empty]; exact List.nodup_nil, by rw [nodes_empty]; rfl⟩

theorem lowered_add {count taken : Nat} (h : taken ≤ count) : lowered count taken + taken = count := by
  unfold lowered
  rw [if_pos h]
  omega

/-- A flush of one family, or of every family, leaves the node. -/
def spared (c : Option Classifier) (n : Node) : Bool :=
  match c with
  | none => false
  | some c => n.rule.classifier != c

theorem removeFamily_some (s : Store) (c : Classifier) :
    s.removeFamily (some c) = (⟨s.buckets.map (·.filter (spared (some c))), s.index.filter (spared (some c)),
      lowered s.count (s.family c).length⟩, (s.family c).length) := rfl

namespace Valid

variable {s : Store}

theorem mem_chain (h : Valid s) {key : UInt32} {n : Node} : n ∈ s.index.chain key ↔ n ∈ s.nodes ∧ n.key = key := by
  rw [Index.mem_chain s.index h.index, h.perm.mem_iff]

theorem distinct_index (h : Valid s) : Node.Distinct s.index.nodes := h.distinct.perm h.perm.symm

theorem isEmpty_iff (h : Valid s) : s.isEmpty = true ↔ s.nodes = [] := by
  rw [isEmpty, h.count, beq_iff_eq, List.length_eq_zero_iff]

/-- **A store is its order of evaluation and its chains.** -/
theorem ext {s' : Store} (h : Valid s) (h' : Valid s') (hn : s.nodes = s'.nodes)
    (hc : ∀ k, s.index.chain k = s'.index.chain k) : s = s' := by
  have hbuckets : s.buckets = s'.buckets := Vector.ext fun p hp => by
    have hbucket : s.buckets.get ⟨p, hp⟩ = s'.buckets.get ⟨p, hp⟩ := by
      rw [h.ranked.bucket_eq_filter, h'.ranked.bucket_eq_filter, hn]
    exact hbucket
  have hindex : s.index = s'.index := Index.ext_chain h.index h'.index hc
  have hcount : s.count = s'.count := by rw [h.count, h'.count, hn]
  obtain ⟨buckets, index, count⟩ := s
  obtain rfl := hbuckets
  obtain rfl := hindex
  obtain rfl := hcount
  rfl

theorem not_is_of_key_ne (h : Valid s) {old m : Node} (ho : old ∈ s.nodes) {k : UInt32} (hk : k ≠ old.key)
    (hm : m ∈ s.index.chain k) : m.is old = false := by
  obtain ⟨hmn, hmk⟩ := h.mem_chain.1 hm
  rw [Node.is_eq_false_iff]
  intro he
  exact hk (by rw [← hmk, h.distinct.eq_of_serial hmn ho he])

/-! ## One chain edited -/

section Edit

variable {old : Node}

theorem chain_alter_replaceIn (h : Valid s) (ho : old ∈ s.nodes) (new : Node) (k : UInt32) :
    (s.index.alter (Node.replaceIn old new) old.key).chain k = Node.replaceIn old new (s.index.chain k) := by
  rw [Index.chain_alter h.index]
  split
  · rename_i hk
    rw [hk]
  · rename_i hk
    exact (Node.replaceIn_of_none (fun m hm => h.not_is_of_key_ne ho hk hm)).symm

theorem chain_alter_removeFrom (h : Valid s) (ho : old ∈ s.nodes) (k : UInt32) :
    (s.index.alter (Node.removeFrom old) old.key).chain k = Node.removeFrom old (s.index.chain k) := by
  rw [Index.chain_alter h.index]
  split
  · rename_i hk
    rw [hk]
  · rename_i hk
    exact (Node.removeFrom_of_none (fun m hm => h.not_is_of_key_ne ho hk hm)).symm

theorem nodes_alter_replaceIn (h : Valid s) (ho : old ∈ s.nodes) (new : Node) :
    (s.index.alter (Node.replaceIn old new) old.key).nodes = Node.replaceIn old new s.index.nodes := by
  obtain ⟨A, B, hi, hf⟩ := Index.nodes_alter h.index old.key
  have hd := h.distinct_index
  rw [hi] at hd ⊢
  rw [hf, Node.replaceIn_middle hd (h.mem_chain.2 ⟨ho, rfl⟩)]

theorem nodes_alter_removeFrom (h : Valid s) (ho : old ∈ s.nodes) :
    (s.index.alter (Node.removeFrom old) old.key).nodes = Node.removeFrom old s.index.nodes := by
  obtain ⟨A, B, hi, hf⟩ := Index.nodes_alter h.index old.key
  have hd := h.distinct_index
  rw [hi] at hd ⊢
  rw [hf, Node.removeFrom_middle hd (h.mem_chain.2 ⟨ho, rfl⟩)]

end Edit

/-! ## A node comes -/

theorem chain_insert (h : Valid s) (n : Node) (k : UInt32) :
    (s.insert n).index.chain k = if k = n.key then s.index.chain n.key ++ [n] else s.index.chain k :=
  Index.chain_alter h.index _ _ k

theorem nodes_insert (h : Valid s) (n : Node) : (s.insert n).nodes = Node.placeIn n s.nodes :=
  nodes_append_bucket h.ranked n

theorem insert (h : Valid s) {n : Node} (hp : n.rule.precedence.toNat = n.rule.bucket.val)
    (hf : ∀ m ∈ s.nodes, m.serial ≠ n.serial) : Valid (s.insert n) := by
  have hperm : (s.insert n).nodes.Perm (n :: s.nodes) := by
    rw [h.nodes_insert n]
    exact Node.placeIn_perm n s.nodes
  refine ⟨h.ranked.append_bucket hp, ?_, ?_, ?_, ?_⟩
  · refine Index.wellFormed_alter h.index _ _ (fun m hm => ?_)
    rcases List.mem_append.1 hm with hm | hm
    · exact (h.mem_chain.1 hm).2
    · rw [List.mem_singleton.1 hm]
  · obtain ⟨A, B, hi, hf⟩ := Index.nodes_alter h.index n.key
    have hmid : (A ++ (s.index.chain n.key ++ [n]) ++ B).Perm (n :: s.index.nodes) := by
      rw [hi, ← List.append_assoc, List.append_assoc _ [n]]
      exact List.perm_middle
    exact (hf (· ++ [n]) ▸ hmid).trans ((h.perm.cons n).trans hperm.symm)
  · exact (Node.distinct_cons.2 ⟨hf, h.distinct⟩).perm hperm.symm
  · rw [hperm.length_eq, List.length_cons, ← h.count]
    rfl

/-! ## A node takes the place of another -/

section Replace

variable {old : Node}

theorem index_replace (old new : Node) :
    (s.replace old new).index = s.index.alter (Node.replaceIn old new) old.key := by
  unfold replace
  split <;> rfl

theorem count_replace (s : Store) (old new : Node) : (s.replace old new).count = s.count := by
  unfold replace
  split <;> rfl

theorem chain_replace (h : Valid s) (ho : old ∈ s.nodes) (new : Node) (k : UInt32) :
    (s.replace old new).index.chain k = Node.replaceIn old new (s.index.chain k) := by
  rw [index_replace]
  exact h.chain_alter_replaceIn ho new k

theorem nodes_replace (h : Valid s) (ho : old ∈ s.nodes) (new : Node) :
    (s.replace old new).nodes = if old.rule.bucket = new.rule.bucket then Node.replaceIn old new s.nodes
      else Node.placeIn new (Node.removeFrom old s.nodes) := by
  unfold replace
  split
  · exact nodes_replaceIn_bucket h.ranked h.distinct ho new
  · rw [← nodes_removeFrom_bucket h.ranked h.distinct ho]
    exact nodes_append_bucket (h.ranked.removeFrom_bucket old _) new

theorem replace_perm (h : Valid s) (ho : old ∈ s.nodes) (new : Node) :
    (old :: (s.replace old new).nodes).Perm (new :: s.nodes) := by
  rw [h.nodes_replace ho]
  split
  · exact Node.replaceIn_perm h.distinct ho new
  · exact ((Node.placeIn_perm new _).cons old).trans
      ((List.Perm.swap _ _ _).trans ((Node.removeFrom_perm h.distinct ho).cons new))

theorem replace (h : Valid s) (ho : old ∈ s.nodes) {new : Node} (hk : new.key = old.key)
    (hp : new.rule.precedence.toNat = new.rule.bucket.val) (hf : ∀ m ∈ s.nodes, m.serial ≠ new.serial) :
    Valid (s.replace old new) := by
  have hperm := h.replace_perm ho new
  refine ⟨?_, ?_, ?_, ?_, ?_⟩
  · unfold Store.replace
    split
    · rename_i hb
      refine h.ranked.onBucket (fun m hm => ?_)
      rcases Node.mem_replaceIn hm with rfl | hm
      · rw [hp, hb]
      · exact h.ranked _ m hm
    · exact (h.ranked.removeFrom_bucket old _).append_bucket hp
  · rw [index_replace]
    refine Index.wellFormed_alter h.index _ _ (fun m hm => ?_)
    rcases Node.mem_replaceIn hm with rfl | hm
    · exact hk
    · exact (h.mem_chain.1 hm).2
  · have hip : (old :: (s.replace old new).index.nodes).Perm (new :: s.index.nodes) := by
      rw [index_replace, h.nodes_alter_replaceIn ho]
      exact Node.replaceIn_perm h.distinct_index (h.perm.mem_iff.2 ho) new
    exact (hip.trans ((h.perm.cons new).trans hperm.symm)).cons_inv
  · exact (Node.distinct_cons.1 ((Node.distinct_cons.2 ⟨hf, h.distinct⟩).perm hperm.symm)).2
  · have hlen := hperm.length_eq
    rw [List.length_cons, List.length_cons] at hlen
    rw [count_replace, h.count]
    omega

end Replace

/-! ## A node goes -/

/-- **What the removal of a stored node makes of the store.** -/
theorem remove? (h : Valid s) {n : Node} (hn : n ∈ s.nodes) :
    ∃ s', s.remove? n = some s' ∧ s'.nodes = Node.removeFrom n s.nodes ∧
      (∀ k, s'.index.chain k = Node.removeFrom n (s.index.chain k)) ∧ s'.count + 1 = s.count ∧ Valid s' := by
  have hany : s.buckets[n.rule.bucket].any (·.is n) = true :=
    List.any_eq_true.2 ⟨n, h.ranked.mem_bucket hn, (Node.is_iff n n).2 rfl⟩
  have hpos : 1 ≤ s.count := by
    rw [h.count]
    exact List.length_pos_of_mem hn
  have hcount := lowered_add hpos
  have hnodes := nodes_removeFrom_bucket h.ranked h.distinct hn
  have hperm := Node.removeFrom_perm h.distinct hn
  unfold Store.remove?
  rw [if_pos hany]
  refine ⟨_, rfl, hnodes, h.chain_alter_removeFrom hn, hcount, ?_, ?_, ?_, ?_, ?_⟩
  · exact h.ranked.removeFrom_bucket n _
  · refine Index.wellFormed_alter h.index _ _ (fun m hm => ?_)
    exact (h.mem_chain.1 (Node.mem_removeFrom.1 hm).1).2
  · show (s.index.alter (Node.removeFrom n) n.key).nodes.Perm _
    rw [h.nodes_alter_removeFrom hn]
    exact (h.perm.filter _).trans (List.Perm.of_eq hnodes.symm)
  · show Node.Distinct (s.onBucket (Node.removeFrom n) n.rule.bucket).nodes
    rw [hnodes]
    exact (Node.distinct_cons.1 (h.distinct.perm hperm.symm)).2
  · show lowered s.count 1 = (s.onBucket (Node.removeFrom n) n.rule.bucket).nodes.length
    rw [hnodes]
    have hlen := hperm.length_eq
    rw [List.length_cons, ← h.count] at hlen
    omega

/-! ## A family goes -/

/-- **What a flush makes of the store**: the spared nodes stay, in their order, and the rest are counted. -/
theorem removeFamily (h : Valid s) (c : Option Classifier) :
    (s.removeFamily c).1.nodes = s.nodes.filter (spared c) ∧
      (∀ k, (s.removeFamily c).1.index.chain k = (s.index.chain k).filter (spared c)) ∧
      (s.removeFamily c).2 + (s.removeFamily c).1.count = s.count ∧ Valid (s.removeFamily c).1 := by
  cases c with
  | none =>
    have hf : ∀ ns : List Node, ns.filter (spared none) = [] := fun ns =>
      List.filter_eq_nil_iff.2 (fun n _ => by simp [spared])
    exact ⟨nodes_empty.trans (hf _).symm, fun k => (hf _).symm, Nat.add_zero _, valid_empty⟩
  | some c =>
    have hlen : (s.family c).length + (s.nodes.filter (spared (some c))).length = s.nodes.length :=
      (List.length_eq_length_filter_add (fun n : Node => n.rule.classifier == c)).symm
    have hle : (s.family c).length ≤ s.count := by
      rw [h.count]
      omega
    have hcount : lowered s.count (s.family c).length = (s.nodes.filter (spared (some c))).length := by
      have hadd := lowered_add hle
      rw [h.count] at hadd ⊢
      omega
    rw [removeFamily_some]
    refine ⟨nodes_filter_buckets s _ _ _, fun k => Index.chain_filter _ k s.index h.index, ?_, ?_, ?_, ?_, ?_, ?_⟩
    · rw [hcount, hlen, h.count]
    · exact h.ranked.filter_buckets _ _ _
    · exact Index.wellFormed_filter _ s.index h.index
    · rw [nodes_filter_buckets, Index.nodes_filter]
      exact h.perm.filter _
    · rw [nodes_filter_buckets]
      exact List.Nodup.sublist (List.filter_sublist.map _) h.distinct
    · rw [nodes_filter_buckets]
      exact hcount

end Valid

end Store
end TrafficRules
