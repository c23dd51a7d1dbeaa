import TrafficRules.Rule
/-!
# Order — rules by descending precedence

A stable sort keeps the rules of one precedence in their order (`filter_byPrecedence`), and a list that descends in
precedence is settled by its rules of each precedence (`eq_of_descending`): two such lists differ only if they differ
within a precedence.
-/
namespace TrafficRules
namespace Rule

/-- By descending precedence, rules of one precedence in the order they came in. -/
def byPrecedence (rs : List Rule) : List Rule := rs.mergeSort fun a b => b.precedence ≤ a.precedence

def Descending (rs : List Rule) : Prop := rs.Pairwise fun a b => b.precedence ≤ a.precedence

theorem descends_trans (a b c : Rule) (hab : decide (b.precedence ≤ a.precedence) = true)
    (hbc : decide (c.precedence ≤ b.precedence) = true) : decide (c.precedence ≤ a.precedence) = true :=
  decide_eq_true (UInt8.le_trans (of_decide_eq_true hbc) (of_decide_eq_true hab))

theorem descends_total (a b : Rule) : (decide (b.precedence ≤ a.precedence) || decide (a.precedence ≤ b.precedence)) = true := by
  rw [Bool.or_eq_true, decide_eq_true_iff, decide_eq_true_iff]
  exact UInt8.le_total _ _

theorem descending_byPrecedence (rs : List Rule) : Descending (byPrecedence rs) :=
  (List.pairwise_mergeSort descends_trans descends_total rs).imp of_decide_eq_true

theorem byPrecedence_perm (rs : List Rule) : (byPrecedence rs).Perm rs := List.mergeSort_perm rs _

/-- **The sort is stable.** -/
theorem filter_byPrecedence (rs : List Rule) (p : UInt8) :
    (byPrecedence rs).filter (·.precedence == p) = rs.filter (·.precedence == p) := by
  have hlevel : (rs.filter (·.precedence == p)).Pairwise fun a b => decide (b.precedence ≤ a.precedence) = true := by
    refine List.pairwise_of_forall_mem_list fun a ha b hb => decide_eq_true ?_
    rw [beq_iff_eq.1 (List.mem_filter.1 ha).2, beq_iff_eq.1 (List.mem_filter.1 hb).2]
    exact UInt8.le_refl p
  have hsub := (List.sublist_mergeSort descends_trans descends_total hlevel List.filter_sublist).filter (·.precedence == p)
  simp only [List.filter_filter, Bool.and_self] at hsub
  exact (hsub.eq_of_length ((byPrecedence_perm rs).filter _).length_eq.symm).symm

theorem Descending.le_head {x : Rule} {xs : List Rule} (h : Descending (x :: xs)) {y : Rule} (hy : y ∈ x :: xs) :
    y.precedence ≤ x.precedence := by
  rcases List.mem_cons.1 hy with rfl | hy
  · exact UInt8.le_refl _
  · exact (List.pairwise_cons.1 h).1 y hy

theorem mem_of_filters {xs ys : List Rule}
    (h : ∀ p : UInt8, xs.filter (·.precedence == p) = ys.filter (·.precedence == p)) {x : Rule} (hx : x ∈ xs) : x ∈ ys := by
  have hmem : x ∈ xs.filter (·.precedence == x.precedence) := List.mem_filter.2 ⟨hx, beq_self_eq_true _⟩
  rw [h] at hmem
  exact (List.mem_filter.1 hmem).1

/-- **A descending list is settled by its rules of each precedence.** -/
theorem eq_of_descending : ∀ {xs ys : List Rule}, Descending xs → Descending ys →
    (∀ p : UInt8, xs.filter (·.precedence == p) = ys.filter (·.precedence == p)) → xs = ys
  | [], [], _, _, _ => rfl
  | [], y :: ys, _, _, h => absurd (mem_of_filters (fun p => (h p).symm) List.mem_cons_self) List.not_mem_nil
  | x :: xs, [], _, _, h => absurd (mem_of_filters h List.mem_cons_self) List.not_mem_nil
  | x :: xs, y :: ys, hx, hy, h => by
    -- each head is in the other list too, so the heads are of one precedence and the first of it on either side
    have hyx : y.precedence ≤ x.precedence := hx.le_head (mem_of_filters (fun p => (h p).symm) List.mem_cons_self)
    have hxy : x.precedence ≤ y.precedence := hy.le_head (mem_of_filters h List.mem_cons_self)
    have hp : y.precedence = x.precedence := UInt8.le_antisymm hyx hxy
    have hhead := h x.precedence
    rw [List.filter_cons, List.filter_cons, if_pos (beq_self_eq_true x.precedence), if_pos (beq_iff_eq.2 hp)] at hhead
    obtain rfl : x = y := (List.cons.inj hhead).1
    refine congrArg (x :: ·) (eq_of_descending (List.pairwise_cons.1 hx).2 (List.pairwise_cons.1 hy).2 fun p => ?_)
    have htail := h p
    rw [List.filter_cons, List.filter_cons] at htail
    split at htail
    · exact (List.cons.inj htail).2
    · exact htail

end Rule
end TrafficRules
