import TrafficRules.Proofs.Store.Nodes
import TrafficRules.Store
/-!
# Buckets — evaluation order around one precedence

The nodes in evaluation order are those above a precedence, its own bucket and those below it (`nodes_around`).  A
change of one bucket is a change of the middle (`nodes_onBucket`).  In a ranked store, where every node stands in the
bucket of its precedence, the changes the store makes are changes of the whole order: an appended node is placed
behind the last one of no lower precedence (`nodes_append_bucket`), a replaced or removed one is replaced or removed
wherever it stands.
-/
namespace TrafficRules
namespace Store

/-- The nodes of every higher precedence, in evaluation order. -/
def above (s : Store) (p : Fin Rule.precedenceCount) : List Node := (s.buckets.toList.drop (p + 1)).reverse.flatten

/-- The nodes of every lower precedence, in evaluation order. -/
def below (s : Store) (p : Fin Rule.precedenceCount) : List Node := (s.buckets.toList.take p).reverse.flatten

theorem flatten_reverse_set (bs : List (List Node)) (k : Nat) (hk : k < bs.length) (b : List Node) :
    (bs.set k b).reverse.flatten = (bs.drop (k + 1)).reverse.flatten ++ b ++ (bs.take k).reverse.flatten := by
  rw [List.set_eq_take_append_cons_drop, if_pos hk, List.reverse_append, List.reverse_cons, List.flatten_append,
    List.flatten_append, List.flatten_cons, List.flatten_nil, List.append_nil]

theorem nodes_onBucket (f : List Node → List Node) (p : Fin Rule.precedenceCount) (s : Store) :
    (s.onBucket f p).nodes = s.above p ++ f (s.buckets.get p) ++ s.below p := by
  unfold nodes onBucket above below
  rw [Vector.toList_set]
  exact flatten_reverse_set _ _ (by rw [Vector.length_toList]; exact p.isLt) _

theorem onBucket_id (p : Fin Rule.precedenceCount) (s : Store) : s.onBucket (fun ns => ns) p = s := by
  unfold onBucket
  rw [Fin.getElem_fin, Vector.set_getElem_self]

/-- **Evaluation order around a precedence.** -/
theorem nodes_around (s : Store) (p : Fin Rule.precedenceCount) :
    s.nodes = s.above p ++ s.buckets.get p ++ s.below p := by
  conv => lhs; rw [← onBucket_id p s]
  exact nodes_onBucket _ p s

theorem bucket_onBucket (f : List Node → List Node) (p q : Fin Rule.precedenceCount) (s : Store) :
    (s.onBucket f p).buckets.get q = if q = p then f (s.buckets.get p) else s.buckets.get q := by
  unfold onBucket
  by_cases h : q = p
  · subst h
    rw [if_pos rfl]
    exact Vector.getElem_set_self _
  · rw [if_neg h]
    exact Vector.getElem_set_ne p.isLt q.isLt (fun e => h (Fin.ext e.symm))

theorem bucket_empty (p : Fin Rule.precedenceCount) : empty.buckets.get p = [] := Vector.getElem_replicate p.isLt

theorem mem_bucket_of_mem_toList {s : Store} {b : List Node} {k : Nat} (h : s.buckets.toList[k]? = some b) :
    ∃ p : Fin Rule.precedenceCount, p.val = k ∧ s.buckets.get p = b := by
  obtain ⟨hk, hb⟩ := List.getElem?_eq_some_iff.1 h
  rw [Vector.length_toList] at hk
  exact ⟨⟨k, hk⟩, rfl, by rw [← hb, Vector.getElem_toList]; rfl⟩

theorem mem_above {s : Store} {p : Fin Rule.precedenceCount} {n : Node} (h : n ∈ s.above p) :
    ∃ q, p < q ∧ n ∈ s.buckets.get q := by
  obtain ⟨b, hb, hn⟩ := List.mem_flatten.1 h
  obtain ⟨j, hj⟩ := List.mem_iff_getElem?.1 (List.mem_reverse.1 hb)
  rw [List.getElem?_drop] at hj
  obtain ⟨q, hq, rfl⟩ := mem_bucket_of_mem_toList hj
  exact ⟨q, Fin.lt_def.2 (by omega), hn⟩

theorem mem_below {s : Store} {p : Fin Rule.precedenceCount} {n : Node} (h : n ∈ s.below p) :
    ∃ q, q < p ∧ n ∈ s.buckets.get q := by
  obtain ⟨b, hb, hn⟩ := List.mem_flatten.1 h
  obtain ⟨j, hj⟩ := List.mem_iff_getElem?.1 (List.mem_reverse.1 hb)
  rw [List.getElem?_take] at hj
  split at hj
  · rename_i hlt
    obtain ⟨q, hq, rfl⟩ := mem_bucket_of_mem_toList hj
    exact ⟨q, Fin.lt_def.2 (by omega), hn⟩
  · cases hj

theorem mem_nodes {s : Store} {n : Node} : n ∈ s.nodes ↔ ∃ p : Fin Rule.precedenceCount, n ∈ s.buckets.get p := by
  constructor
  · intro h
    rw [nodes_around s 0] at h
    rcases List.mem_append.1 h with h | h
    · rcases List.mem_append.1 h with h | h
      · obtain ⟨q, -, hq⟩ := mem_above h
        exact ⟨q, hq⟩
      · exact ⟨0, h⟩
    · obtain ⟨q, -, hq⟩ := mem_below h
      exact ⟨q, hq⟩
  · rintro ⟨p, hp⟩
    rw [nodes_around s p]
    exact List.mem_append_left _ (List.mem_append_right _ hp)

/-! ## Ranked stores -/

/-- Every node stands in the bucket of its precedence. -/
def Ranked (s : Store) : Prop :=
  ∀ (p : Fin Rule.precedenceCount), ∀ n ∈ s.buckets.get p, n.rule.precedence.toNat = p.val

theorem ranked_empty : Ranked empty := by
  intro p n hn
  rw [bucket_empty] at hn
  cases hn

theorem bucket_eq_of_precedence {r : Rule} {p : Fin Rule.precedenceCount} (h : r.precedence.toNat = p.val) :
    r.bucket = p := by
  have hlt : r.precedence.toNat < Rule.precedenceCount := h ▸ p.isLt
  unfold Rule.bucket
  rw [dif_pos hlt]
  exact Fin.ext h

theorem Ranked.bucket_eq {s : Store} (h : Ranked s) {p : Fin Rule.precedenceCount} {n : Node} (hn : n ∈ s.buckets.get p) :
    n.rule.bucket = p := bucket_eq_of_precedence (h p n hn)

theorem Ranked.mem_bucket {s : Store} (h : Ranked s) {n : Node} (hn : n ∈ s.nodes) : n ∈ s.buckets.get n.rule.bucket := by
  obtain ⟨p, hp⟩ := mem_nodes.1 hn
  obtain rfl := h.bucket_eq hp
  exact hp

theorem Ranked.precedence_eq {s : Store} (h : Ranked s) {n : Node} (hn : n ∈ s.nodes) :
    n.rule.precedence.toNat = n.rule.bucket.val := h _ n (h.mem_bucket hn)

theorem Ranked.precedence_le_iff {s : Store} (h : Ranked s) {m n : Node} (hm : m ∈ s.nodes)
    (hn : n.rule.precedence.toNat = n.rule.bucket.val) : n.rule.precedence ≤ m.rule.precedence ↔ n.rule.bucket ≤ m.rule.bucket := by
  rw [UInt8.le_iff_toNat_le, hn, h.precedence_eq hm, Fin.le_def]

theorem Ranked.onBucket {s : Store} (h : Ranked s) {f : List Node → List Node} {p : Fin Rule.precedenceCount}
    (hf : ∀ n ∈ f (s.buckets.get p), n.rule.precedence.toNat = p.val) : Ranked (s.onBucket f p) := by
  intro q n hn
  rw [bucket_onBucket] at hn
  split at hn
  · rename_i hq
    subst hq
    exact hf n hn
  · exact h q n hn

theorem Ranked.append_bucket {s : Store} (h : Ranked s) {n : Node} (hn : n.rule.precedence.toNat = n.rule.bucket.val) :
    Ranked (s.onBucket (· ++ [n]) n.rule.bucket) :=
  h.onBucket (fun m hm => (List.mem_append.1 hm).elim (h _ m) (fun hm => List.mem_singleton.1 hm ▸ hn))

theorem Ranked.removeFrom_bucket {s : Store} (h : Ranked s) (old : Node) (p : Fin Rule.precedenceCount) :
    Ranked (s.onBucket (Node.removeFrom old) p) :=
  h.onBucket (fun m hm => h p m (Node.mem_removeFrom.1 hm).1)

theorem Ranked.not_below {s : Store} (h : Ranked s) {p : Fin Rule.precedenceCount} {m : Node}
    (hm : m ∈ s.above p ++ s.buckets.get p) : p ≤ m.rule.bucket := by
  rcases List.mem_append.1 hm with hm | hm
  · obtain ⟨q, hq, hmq⟩ := mem_above hm
    exact h.bucket_eq hmq ▸ Fin.le_of_lt hq
  · exact h.bucket_eq hm ▸ Fin.le_refl _

theorem Ranked.below {s : Store} (h : Ranked s) {p : Fin Rule.precedenceCount} {m : Node} (hm : m ∈ s.below p) :
    m.rule.bucket < p := by
  obtain ⟨q, hq, hmq⟩ := mem_below hm
  exact h.bucket_eq hmq ▸ hq

/-- **Evaluation goes down in precedence.** -/
theorem Ranked.pairwise_nodes {s : Store} (h : Ranked s) : s.nodes.Pairwise fun a b => b.rule.bucket ≤ a.rule.bucket := by
  have hbucket : ∀ {k : Nat} {b : List Node}, s.buckets.toList[k]? = some b → ∀ n ∈ b, n.rule.bucket.val = k := by
    intro k b hb n hn
    obtain ⟨p, rfl, rfl⟩ := mem_bucket_of_mem_toList hb
    rw [h.bucket_eq hn]
  unfold nodes
  rw [List.pairwise_flatten, List.pairwise_reverse, List.pairwise_iff_getElem]
  constructor
  · intro b hb
    obtain ⟨k, hk⟩ := List.mem_iff_getElem?.1 (List.mem_reverse.1 hb)
    exact List.pairwise_of_forall_mem_list fun m hm n hn =>
      Fin.le_def.2 (Nat.le_of_eq ((hbucket hk n hn).trans (hbucket hk m hm).symm))
  · intro i j hi hj hij m hm n hn
    rw [Fin.le_def, hbucket (List.getElem?_eq_getElem hj) m hm, hbucket (List.getElem?_eq_getElem hi) n hn]
    exact Nat.le_of_lt hij

/-- **A bucket is what evaluation meets of its precedence.** -/
theorem Ranked.bucket_eq_filter {s : Store} (h : Ranked s) (p : Fin Rule.precedenceCount) :
    s.buckets.get p = s.nodes.filter (·.rule.bucket == p) := by
  have hself : (s.buckets.get p).filter (·.rule.bucket == p) = s.buckets.get p :=
    List.filter_eq_self.2 fun m hm => beq_iff_eq.2 (h.bucket_eq hm)
  have habove : (s.above p).filter (·.rule.bucket == p) = [] := List.filter_eq_nil_iff.2 fun m hm => by
    obtain ⟨q, hq, hmq⟩ := mem_above hm
    simpa [h.bucket_eq hmq] using Fin.ne_of_gt hq
  have hbelow : (s.below p).filter (·.rule.bucket == p) = [] := List.filter_eq_nil_iff.2 fun m hm => by
    simpa using Fin.ne_of_lt (h.below hm)
  rw [nodes_around s p, List.filter_append, List.filter_append, habove, hself, hbelow, List.nil_append, List.append_nil]

/-- **A node put last in its bucket is placed in evaluation order.** -/
theorem nodes_append_bucket {s : Store} (h : Ranked s) (n : Node) :
    (s.onBucket (· ++ [n]) n.rule.bucket).nodes = Node.placeIn n s.nodes := by
  rw [nodes_onBucket, nodes_around s n.rule.bucket, Node.placeIn_cut _ _ (fun _ => h.not_below) (fun _ => h.below)]
  simp

/-- **A node replaced in its bucket is replaced in evaluation order.** -/
theorem nodes_replaceIn_bucket {s : Store} (h : Ranked s) (hd : Node.Distinct s.nodes) {old : Node} (ho : old ∈ s.nodes)
    (new : Node) : (s.onBucket (Node.replaceIn old new) old.rule.bucket).nodes = Node.replaceIn old new s.nodes := by
  rw [nodes_around s old.rule.bucket] at hd
  rw [nodes_onBucket, nodes_around s old.rule.bucket, Node.replaceIn_middle hd (h.mem_bucket ho)]

/-- **A node removed from its bucket is removed from evaluation order.** -/
theorem nodes_removeFrom_bucket {s : Store} (h : Ranked s) (hd : Node.Distinct s.nodes) {old : Node}
    (ho : old ∈ s.nodes) :
    (s.onBucket (Node.removeFrom old) old.rule.bucket).nodes = Node.removeFrom old s.nodes := by
  rw [nodes_around s old.rule.bucket] at hd
  rw [nodes_onBucket, nodes_around s old.rule.bucket, Node.removeFrom_middle hd (h.mem_bucket ho)]

theorem nodes_filter_buckets (s : Store) (p : Node → Bool) (i : Index) (k : Nat) :
    nodes ⟨s.buckets.map (·.filter p), i, k⟩ = s.nodes.filter p := by
  unfold nodes
  rw [Vector.toList_map, ← List.map_reverse, List.filter_flatten]

theorem Ranked.filter_buckets {s : Store} (h : Ranked s) (p : Node → Bool) (i : Index) (k : Nat) :
    Ranked ⟨s.buckets.map (·.filter p), i, k⟩ := by
  intro q n hn
  have hn : n ∈ (s.buckets.map (·.filter p))[q] := hn
  rw [Fin.getElem_fin, Vector.getElem_map] at hn
  exact h q n (List.mem_filter.1 hn).1

end Store
end TrafficRules
