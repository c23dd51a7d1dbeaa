import TrafficRules.Proofs.Table.Left
/-!
# Flushed — what flushes leave, one by one and all at once

A flush of a family filters every bucket and every chain on its own and counts what goes; a full flush starts over and
trusts the count.  Both leave the nodes that they spare, as deletions leave the nodes they do not name (`left_flush`), and
what is left is settled by what stays.  So a flush may be traded for deletions in any order, flushes for each other, and
the six families, in any order, for everything (`flush_exact_and_compositional`).
-/
namespace TrafficRules
namespace Table

/-- Flushes of families, one after the other. -/
def flushes (cs : List Classifier) : List Call := cs.map fun c => .flush (some c)

/-- The number of stored rules of a family. -/
def familySize (t : Table) (c : Classifier) : Nat := t.rules.countP (·.classifier == c)

variable {t : Table}

/-! ## One flush -/

/-- **A flush leaves what it spares**, on a table with rules or without. -/
theorem left_flush (h : Reachable t) (c : Option Classifier) : Left (Store.spared c) t (t.flush c).table := by
  have hplugins := ((IsChange.flush c).settings t).2
  rcases t.flush_cases c with ⟨hempty, -, ht⟩ | ⟨-, hs, -⟩
  · have hnodes := h.valid.store.isEmpty_iff.1 hempty
    rw [ht]
    refine (Left.refl h).congr h fun n hn => ?_
    rw [hnodes] at hn
    cases hn
  · obtain ⟨hnodes, hchains, -, -⟩ := h.valid.store.removeFamily c
    exact ⟨h.flush c, by rw [hs, hnodes], by rw [hs]; exact hchains, hplugins⟩

theorem flush_counts (h : Reachable t) (c : Option Classifier) :
    ∃ k, (t.flush c).result = .ok k ∧ k + (t.flush c).table.size = t.size := by
  rcases t.flush_cases c with ⟨hempty, hresult, ht⟩ | ⟨hresult, hs, -⟩
  · exact ⟨0, hresult, by rw [ht, Nat.zero_add]⟩
  · obtain ⟨-, -, hcount, -⟩ := h.valid.store.removeFamily c
    refine ⟨_, hresult, ?_⟩
    unfold size
    rw [hs]
    exact hcount

theorem rules_flush (h : Reachable t) (c : Classifier) :
    (t.flush (some c)).table.rules = t.rules.filter (·.classifier != c) := (left_flush h (some c)).rules

theorem rules_flush_none (h : Reachable t) : (t.flush none).table.rules = [] := by
  rw [(left_flush h none).rules (p := fun _ => false), List.filter_false]

theorem result_flush (h : Reachable t) (c : Classifier) : (t.flush (some c)).result = .ok (t.familySize c) := by
  obtain ⟨k, hk, hsize⟩ := flush_counts h (some c)
  rw [h.valid.size_eq_length, (h.flush (some c)).valid.size_eq_length, rules_flush h] at hsize
  have hsplit := List.length_eq_length_filter_add (l := t.rules) (fun r => r.classifier == c)
  have hcount : t.familySize c = (t.rules.filter (·.classifier == c)).length := List.countP_eq_length_filter
  have hother : (t.rules.filter fun r => !(r.classifier == c)) = t.rules.filter (·.classifier != c) := rfl
  rw [hother] at hsplit
  rw [hk, hcount]
  congr 1
  omega

theorem result_flush_none (h : Reachable t) : (t.flush none).result = .ok t.size := by
  obtain ⟨k, hk, hsize⟩ := flush_counts h none
  rw [(h.flush none).valid.size_eq_length, rules_flush_none h] at hsize
  rw [hk, ← hsize]
  rfl

theorem nextSerial_flush (t : Table) (c : Option Classifier) : (t.flush c).table.nextSerial = t.nextSerial := by
  rcases t.flush_cases c with ⟨-, -, ht⟩ | ⟨-, -, hn⟩
  · rw [ht]
  · exact hn

theorem familySize_flush (h : Reachable t) {c d : Classifier} (hne : d ≠ c) :
    (t.flush (some c)).table.familySize d = t.familySize d := by
  unfold familySize
  rw [rules_flush h, List.countP_filter]
  refine List.countP_congr fun r _ => ?_
  simp only [Bool.and_eq_true, beq_iff_eq, bne_iff_ne]
  exact ⟨fun hr => hr.1, fun hr => ⟨hr, hr ▸ hne⟩⟩

/-- **A query succeeds on what is left**: on rules of the other families. -/
theorem query_flush_iff (h : Reachable t) {c d : Classifier} {sel : Selector} {r : Rule} :
    (t.flush (some c)).table.query sel d = .ok r ↔ d ≠ c ∧ t.query sel d = .ok r := by
  have hleft := left_flush h (some c)
  rw [query_eq_ok_iff hleft.reachable.valid, query_eq_ok_iff h.valid]
  by_cases hd : d = c
  · have hnone : (t.flush (some c)).table.store.find sel d = none := hleft.find_eq_none fun n hn =>
      Store.spared_some_eq_false_iff.2 ((Node.classifier_of_names hn).trans hd)
    rw [hnone]
    exact iff_of_false (fun ⟨_, hn, _⟩ => nomatch hn) fun hq => hq.1 hd
  · rw [hleft.find h fun n hn => Store.spared_some_iff.2 fun he => hd ((Node.classifier_of_names hn).symm.trans he)]
    exact (and_iff_right hd).symm

/-! ## One flush after the other -/

theorem store_flush_comm (h : Reachable t) (c d : Option Classifier) :
    ((t.flush c).table.flush d).table.store = ((t.flush d).table.flush c).table.store := by
  have hcd := (left_flush h c).trans (left_flush (h.flush c) d)
  have hdc := (left_flush h d).trans (left_flush (h.flush d) c)
  exact hcd.store_eq (hdc.congr h fun n _ => Bool.and_comm _ _)

/-- **A flush that is repeated** finds nothing to do. -/
theorem flush_again (h : Reachable t) (c : Option Classifier) : ((t.flush c).table.flush c).result = .ok 0 ∧
    ((t.flush c).table.flush c).table.store = (t.flush c).table.store := by
  have hagain : ((t.flush c).table.flush c).table.store = (t.flush c).table.store :=
    ((left_flush h c).trans (left_flush (h.flush c) c)).store_eq
      ((left_flush h c).congr h fun n _ => (Bool.and_self (Store.spared c n)).symm)
  obtain ⟨k, hk, hsize⟩ := flush_counts (h.flush c) c
  unfold size at hsize
  rw [hagain] at hsize
  obtain rfl : k = 0 := by omega
  exact ⟨hk, hagain⟩

theorem left_flushes : ∀ (cs : List Classifier) {t : Table}, Reachable t →
    Left (fun n => cs.all fun c => Store.spared (some c) n) t (run (flushes cs) t).1
  | [], _, h => .refl h
  | c :: cs, _, h => (left_flush h (some c)).trans (left_flushes cs (h.flush (some c)))

theorem frame_flushes : ∀ (cs : List Classifier) (t : Table), (run (flushes cs) t).1.config = t.config ∧
    (run (flushes cs) t).1.plugins = t.plugins ∧ (run (flushes cs) t).1.nextSerial = t.nextSerial
  | [], _ => ⟨rfl, rfl, rfl⟩
  | c :: cs, t => by
    obtain ⟨hconfig, hplugins⟩ := (IsChange.flush (some c)).settings t
    obtain ⟨hconfig', hplugins', hserial'⟩ := frame_flushes cs (t.flush (some c)).table
    exact ⟨hconfig'.trans hconfig, hplugins'.trans hplugins, hserial'.trans (nextSerial_flush t (some c))⟩

/-- Each of different families is answered with the number it had at the start. -/
theorem answers_flushes : ∀ (cs : List Classifier) {t : Table}, Reachable t → cs.Nodup →
    (run (flushes cs) t).2.map (·.answer) = cs.map fun c => .flushed (.ok (t.familySize c))
  | [], _, _, _ => rfl
  | c :: cs, t, h, hcs => by
    obtain ⟨hc, hcs⟩ := List.nodup_cons.1 hcs
    have hrest := answers_flushes cs (h.flush (some c)) hcs
    have hsame : ∀ d ∈ cs, (t.flush (some c)).table.familySize d = t.familySize d := fun d hd =>
      familySize_flush h fun he => hc (he ▸ hd)
    show Answer.flushed (t.flush (some c)).result :: (run (flushes cs) (t.flush (some c)).table).2.map (·.answer) = _
    rw [result_flush h, hrest, List.map_cons]
    exact congrArg _ (List.map_congr_left fun d hd => by rw [hsame d hd])

theorem sum_familySize (h : Reachable t) : (Classifier.all.map t.familySize).sum = t.size := by
  rw [h.valid.size_eq_length]
  show (Classifier.all.map fun c => t.rules.countP (·.classifier == c)).sum = t.rules.length
  simpa using Classifier.sum_countP (·.classifier) (fun _ => true) t.rules

theorem left_flushes_all (h : Reachable t) {cs : List Classifier} (hcs : cs.Perm Classifier.all) :
    Left (Store.spared none) t (run (flushes cs) t).1 := by
  refine (left_flushes cs h).congr h fun n _ => ?_
  rw [Store.spared, List.all_eq_false]
  refine ⟨n.rule.classifier, hcs.mem_iff.2 ?_, ?_⟩
  · cases n.rule.classifier <;> decide
  · rw [Bool.not_eq_true, Store.spared_some_eq_false_iff]

/-- **Flushes are exact and compose.**  A flush of a family answers with the number of its rules and leaves the others, in
their order: every selector of another family finds what it found, every selector of the family nothing.  Of a family named
by id the same store is left by deletions, each of them successful, in any order.  Two flushes may be swapped; those of all
families, in any order, leave what a full flush leaves, their counts adding up to its count; and a flush that is repeated
finds nothing to do. -/
theorem flush_exact_and_compositional {t : Table} (h : Reachable t) :
    (∀ c, let t' := (t.flush (some c)).table
      (t.flush (some c)).result = .ok (t.rules.countP (·.classifier == c)) ∧
      t'.rules = t.rules.filter (·.classifier != c) ∧
      (∀ d ≠ c, ∀ sel r, t'.query sel d = .ok r ↔ t.query sel d = .ok r) ∧
      (∀ sel r, t'.query sel c ≠ .ok r) ∧
      (c ≠ .ifli → ∀ rs, rs.Perm (t.rules.filter (·.classifier == c)) →
        (∀ x ∈ (run (deletions rs) t).2, x.answer = .changed (.ok .deleted)) ∧
        (deleteEach rs t).rules = t'.rules ∧ (deleteEach rs t).store = t'.store)) ∧
    (∀ c d, ((t.flush (some c)).table.flush (some d)).table.store = ((t.flush (some d)).table.flush (some c)).table.store ∧
      (c ≠ d → ((t.flush (some c)).table.flush (some d)).result = (t.flush (some d)).result)) ∧
    (∀ cs, cs.Perm Classifier.all → let u := run (flushes cs) t; let t' := (t.flush none).table
      u.1.rules = [] ∧ u.1 = { t' with counters := u.1.counters } ∧
      ∃ counts : List Nat, u.2.map (·.answer) = counts.map (fun n => .flushed (.ok n)) ∧ (t.flush none).result = .ok counts.sum) ∧
    ∀ c, ((t.flush c).table.flush c).result = .ok 0 ∧ ((t.flush c).table.flush c).table.store = (t.flush c).table.store := by
  refine ⟨fun c => ⟨result_flush h c, rules_flush h c, fun d hd sel r => (query_flush_iff h).trans (and_iff_right hd),
    fun sel r hq => ((query_flush_iff h).1 hq).1 rfl, fun hc rs hrs => ?_⟩, fun c d => ⟨store_flush_comm h _ _, fun hcd => ?_⟩,
    fun cs hcs => ?_, flush_again h⟩
  · obtain ⟨hanswers, hleft⟩ := left_deleteEach_perm h (fun r hr => by
      rw [beq_iff_eq.1 hr, Classifier.isFlowKeyed_eq_false_iff]
      exact hc) hrs
    have hstore : (deleteEach rs t).store = (t.flush (some c)).table.store := hleft.store_eq (left_flush h (some c))
    exact ⟨hanswers, by unfold rules; rw [hstore], hstore⟩
  · rw [result_flush (h.flush _), result_flush h, familySize_flush h (Ne.symm hcd)]
  · intro u t'
    have hleft : Left (Store.spared none) t u.1 := left_flushes_all h hcs
    obtain ⟨hconfig, hplugins, hserial⟩ : u.1.config = _ ∧ u.1.plugins = _ ∧ u.1.nextSerial = _ := frame_flushes cs t
    obtain ⟨hconfig', hplugins'⟩ : t'.config = _ ∧ t'.plugins = _ := (IsChange.flush none).settings t
    have hserial' : t'.nextSerial = t.nextSerial := nextSerial_flush t none
    have hstore : u.1.store = t'.store := hleft.store_eq (left_flush h none)
    refine ⟨?_, ?_, cs.map t.familySize, ?_, ?_⟩
    · rw [hleft.rules (p := fun _ => false), List.filter_false]
    · rw [← hstore, hconfig', ← hconfig, hplugins', ← hplugins, hserial', ← hserial]
    · rw [answers_flushes cs h (hcs.nodup_iff.2 (by decide)), List.map_map]
      rfl
    · rw [result_flush_none h, (hcs.map t.familySize).sum_nat, sum_familySize h]

/-- Two rules of a family in two buckets, each under a key that it shares. -/
def paired : Table :=
  (run [.add { id := 2, classifier := .scs, precedence := 7 }, .add { id := 2, classifier := .sawf, precedence := 7 },
    .add { id := 4, classifier := .scs }, .add { id := 4, classifier := .ifli, flow := { dstPort := some 4 } }] {}).1

theorem flush_exact_and_compositional_paired :
    (paired.flush (some .scs)).result = .ok 2 ∧
    (∀ r, (paired.flush (some .scs)).table.query (.id 4) .ifli = .ok r ↔ paired.query (.id 4) .ifli = .ok r) ∧
    (paired.rules.filter (·.classifier == .scs)).reverse.map (·.id) = [4, 2] ∧
    (deleteEach (paired.rules.filter (·.classifier == .scs)).reverse paired).rules = (paired.flush (some .scs)).table.rules ∧
    ((paired.flush (some .scs)).table.flush (some .ifli)).result = (paired.flush (some .ifli)).result ∧
    (run (flushes [.ifli, .sawfScs, .mscs, .scs, .sawf, .mesh]) paired).1.rules = [] ∧
    ((paired.flush none).table.flush none).result = .ok 0 := by
  have h : Reachable paired := run_reachable _ (.fresh {} {})
  obtain ⟨hone, htwo, hall, hagain⟩ := flush_exact_and_compositional h
  obtain ⟨hresult, -, hother, -, heach⟩ := hone .scs
  obtain ⟨-, hrules, -⟩ := heach (by decide) _ (List.reverse_perm _)
  exact ⟨hresult.trans (by decide +kernel), hother .ifli (by decide) (.id 4), by decide +kernel, hrules,
    (htwo .scs .ifli).2 (by decide), (hall _ (by decide)).1, (hagain none).1⟩

end Table
end TrafficRules
