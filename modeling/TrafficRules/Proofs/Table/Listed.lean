import TrafficRules.Proofs.Table.Identity
/-!
# Listed — listing a family and looking its rules up

A listing reads the buckets, a query reads one chain.  Buckets and chains hold the same nodes, and a family named by id
has one node of an id, so a rule is listed exactly when its id finds it (`query_id_eq_ok_iff`); a tuple finds one of the
flow-keyed rules that share it, if there are any (`of_query_flow`, `query_flow_eq_error_iff`).  No rule can be listed and
not found, nor found and not listed (`listing_agrees_with_queries`).
-/
namespace TrafficRules
namespace Table

variable {t : Table}

theorem queryByType_eq (h : Valid t) (hne : t.rules ≠ []) {c : Classifier} (hc : c ≠ .ifli) :
    t.queryByType c = .ok (t.rules.filter (·.classifier == c)) := by
  unfold queryByType
  rw [Classifier.isFlowKeyed_eq_false_iff.2 hc, if_neg Bool.false_ne_true, if_neg (mt h.isEmpty_iff.1 hne), filter_rules]
  rfl

/-- **A rule of a family named by id is found under its id exactly when it is stored.** -/
theorem query_id_eq_ok_iff (h : Reachable t) {c : Classifier} (hc : c ≠ .ifli) {r : Rule} :
    t.query (.id r.id) c = .ok r ↔ r ∈ t.rules ∧ r.classifier = c := by
  rw [query_eq_ok_iff h.valid]
  constructor
  · rintro ⟨n, hf, rfl⟩
    obtain ⟨hn, hname⟩ := h.valid.store.of_find hf
    exact ⟨List.mem_map_of_mem hn, (names_id_iff.1 hname).1⟩
  · rintro ⟨hr, rfl⟩
    obtain ⟨n, hn, rfl⟩ := List.mem_map.1 hr
    exact ⟨n, find_of_mem h hn (Classifier.isFlowKeyed_eq_false_iff.2 hc), rfl⟩

theorem nodup_ids (h : Reachable t) {c : Classifier} (hc : c ≠ .ifli) :
    ((t.rules.filter (·.classifier == c)).map (·.id)).Nodup := by
  rw [filter_rules, List.map_map]
  refine List.Nodup.map_on (fun m hm n hn hid => ?_) ((List.Nodup.of_map _ h.valid.store.distinct).filter _)
  obtain ⟨hm, hmc⟩ := List.mem_filter.1 hm
  obtain ⟨hn, hnc⟩ := List.mem_filter.1 hn
  rw [beq_iff_eq] at hmc hnc
  exact h.eq_of_id hm hn (by rw [hnc]; exact Classifier.isFlowKeyed_eq_false_iff.2 hc) (hmc.trans hnc.symm) hid

/-! ## By tuple -/

theorem of_query_flow (h : Valid t) {tuple : FlowTuple} {r : Rule} (hq : t.query (.flow tuple) .ifli = .ok r) :
    r ∈ t.rules ∧ r.classifier = .ifli ∧ r.flow.tuple = tuple := by
  obtain ⟨n, hf, rfl⟩ := (query_eq_ok_iff h).1 hq
  obtain ⟨hn, hname⟩ := h.store.of_find hf
  exact ⟨List.mem_map_of_mem hn, names_flow_iff.1 hname⟩

/-- **A tuple finds nothing exactly when no stored rule has it.** -/
theorem query_flow_eq_error_iff (h : Valid t) {tuple : FlowTuple} :
    (∃ e, t.query (.flow tuple) .ifli = .error e) ↔ ∀ r ∈ t.rules, r.classifier = .ifli → r.flow.tuple ≠ tuple := by
  constructor
  · rintro ⟨e, he⟩ r hr hc ht
    obtain ⟨n, hn, rfl⟩ := List.mem_map.1 hr
    cases hf : t.store.find (.flow tuple) .ifli with
    | none =>
      have hnot := (h.store.find_eq_none_iff rfl).1 hf n hn
      rw [names_flow_iff.2 ⟨hc, ht⟩] at hnot
      cases hnot
    | some m =>
      rw [(query_eq_ok_iff h).2 ⟨m, hf, rfl⟩] at he
      cases he
  · intro hnone
    cases hq : t.query (.flow tuple) .ifli with
    | error e => exact ⟨e, rfl⟩
    | ok r =>
      obtain ⟨hr, hc, ht⟩ := of_query_flow h hq
      exact absurd ht (hnone r hr hc)

/-- **Listing and looking up agree.**  In a table with rules every family named by id is listed, in descending precedence
and no id twice, and a rule is in the list exactly when its id finds it.  Of the flow-keyed rules, which are not listed,
each is found under its tuple, itself or one that shares the tuple, and a tuple that none of them has is not. -/
theorem listing_agrees_with_queries {t : Table} (h : Reachable t) (hne : t.rules ≠ []) :
    (∀ c, c ≠ .ifli → ∃ rs, t.queryByType c = .ok rs ∧ (∀ r, r ∈ rs ↔ t.query (.id r.id) c = .ok r) ∧
      (rs.map (·.id)).Nodup ∧ rs.Pairwise fun a b => b.precedence ≤ a.precedence) ∧
    (∀ r ∈ t.rules, r.classifier = .ifli → ∃ r' ∈ t.rules, t.query (.flow r.flow.tuple) .ifli = .ok r' ∧
      r'.classifier = .ifli ∧ r'.flow.tuple = r.flow.tuple) ∧
    ∀ tuple, (∃ e, t.query (.flow tuple) .ifli = .error e) ↔ ∀ r ∈ t.rules, r.classifier = .ifli → r.flow.tuple ≠ tuple := by
  refine ⟨fun c hc => ⟨_, queryByType_eq h.valid hne hc, fun r => ?_, nodup_ids h hc, h.descending.filter _⟩,
    fun r hr hrc => ?_, fun tuple => query_flow_eq_error_iff h.valid⟩
  · rw [query_id_eq_ok_iff h hc, List.mem_filter, beq_iff_eq]
  · cases hq : t.query (.flow r.flow.tuple) .ifli with
    | error e => exact absurd rfl ((query_flow_eq_error_iff h.valid).1 ⟨e, hq⟩ r hr hrc)
    | ok r' =>
      obtain ⟨hr', hc', ht'⟩ := of_query_flow h.valid hq
      exact ⟨r', hr', rfl, hc', ht'⟩

/-- A rule that moved to another bucket, under one key with a rule of another family that is gone; and two rules of one
tuple. -/
def relisted : Table :=
  (run [.add { id := 2, classifier := .scs, precedence := 3 }, .add { id := 2, classifier := .mscs },
    .add { id := 4, classifier := .scs, precedence := 9 }, .add { id := 2, classifier := .scs, precedence := 5 },
    .add { id := 7, classifier := .ifli, flow := { dstPort := some 2 } }, .add { id := 8, classifier := .ifli, flow := { dstPort := some 2 } },
    .delete (.id 2) .mscs] {}).1

theorem listing_agrees_with_queries_relisted : relisted.rules ≠ [] ∧
    (relisted.rules.map fun r => (r.classifier, r.id, r.precedence)) =
      [(.scs, 4, 9), (.scs, 2, 5), (.ifli, 7, 0), (.ifli, 8, 0)] ∧
    (∃ rs, relisted.queryByType .scs = .ok rs ∧ ∀ r, r ∈ rs ↔ relisted.query (.id r.id) .scs = .ok r) ∧
    relisted.queryByType .mscs = .ok [] ∧
    (∃ r ∈ relisted.rules, relisted.query (.flow { dstPort := 2 }) .ifli = .ok r ∧ r.flow.tuple = { dstPort := 2 }) ∧
    ∃ e, relisted.query (.flow { dstPort := 4 }) .ifli = .error e := by
  have h : Reachable relisted := run_reachable _ (.fresh {} {})
  have hne : relisted.rules ≠ [] := by decide +kernel
  obtain ⟨hlisted, htuples, hnone⟩ := listing_agrees_with_queries h hne
  obtain ⟨rs, hrs, hagree, -⟩ := hlisted .scs (by decide)
  obtain ⟨r, hr, hc, ht⟩ : ∃ r ∈ relisted.rules, r.classifier = .ifli ∧ r.flow.tuple = { dstPort := 2 } := by decide +kernel
  obtain ⟨r', hr', hq, -, ht'⟩ := htuples r hr hc
  rw [ht] at hq ht'
  exact ⟨hne, by decide +kernel, ⟨rs, hrs, hagree⟩, by decide +kernel, ⟨r', hr', hq, ht'⟩, (hnone _).2 (by decide +kernel)⟩

end Table
end TrafficRules
