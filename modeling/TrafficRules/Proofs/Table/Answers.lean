import TrafficRules.Proofs.Table.Reachable
/-!
# Answers — what an addition, a deletion and a query are answered

The checks of an addition stand in a fixed order: the limit, the rule itself, the validator of a wireless rule
(`add_answers`).  A deletion or a query asks for a rule in a table that holds some (`named_answers`), so a query succeeds
with the rule of the node that is found and with no other (`query_eq_ok_iff`).
-/
namespace TrafficRules

namespace Table

/-- There is no room for a further rule. -/
def Full (t : Table) : Prop := t.config.maxRules.toNat ≤ t.size

/-- The validator turns the wireless parameters of a rule down, or there is none to ask. -/
def Barred (t : Table) (r : Rule) : Prop :=
  ∃ w, r.classifier = .sawf ∧ r.wlan = some w ∧ ∀ v, t.plugins.validator = some v → v (.ofRule w) = false

/-- A rule fails a check of its own, or the validator's. -/
def Unfit (t : Table) (r : Rule) : Prop := r.fault?.isSome = true ∨ t.Barred r

theorem barred_iff {t : Table} {r : Rule} : t.Barred r ↔ (t.wlanRefusal? r).isSome = true := by
  unfold Barred wlanRefusal? wlanQuestion? Rule.isWlan Plugins.validate
  cases hw : r.wlan with
  | none => simp
  | some w =>
    by_cases hc : r.classifier = .sawf
    · cases hv : t.plugins.validator with
      | none => simp [hc]
      | some v => cases ha : v (.ofRule w) <;> simp [hc, ha]
    · simp [hc]

/-- **The answer to an addition.** -/
theorem add_answers (t : Table) (r : Rule) :
    (t.Full ∧ t.add r = { table := t, result := .error (.tableFull t.config.maxRules) }) ∨
    (¬ t.Full ∧ t.Unfit r ∧ ∃ reason, (t.add r).result = .error (.invalidEntry reason)) ∨
    ¬ t.Full ∧ ¬ t.Unfit r ∧
      ((∃ old key, t.store.findSame (t.incoming r) = some old ∧ (t.add r).result = .ok (.modified key)) ∨
        ∃ key, t.store.findSame (t.incoming r) = none ∧ (t.add r).result = .ok (.added key)) := by
  unfold Unfit
  rw [barred_iff]
  by_cases hfull : t.Full
  · exact Or.inl ⟨hfull, if_pos hfull⟩
  · unfold add
    rw [if_neg (show ¬ t.config.maxRules.toNat ≤ t.size from hfull)]
    cases hf : r.fault? with
    | some f => exact Or.inr (Or.inl ⟨hfull, Or.inl rfl, _, rfl⟩)
    | none =>
      cases hw : t.wlanRefusal? r with
      | some x => exact Or.inr (Or.inl ⟨hfull, Or.inr rfl, _, rfl⟩)
      | none =>
        refine Or.inr (Or.inr ⟨hfull, by simp, ?_⟩)
        unfold install incoming
        dsimp only
        cases t.store.findSame (Node.ofRule t.nextSerial r) with
        | some old => exact Or.inl ⟨old, _, rfl, rfl⟩
        | none => exact Or.inr ⟨_, rfl, rfl⟩

theorem fit_of_accepted {t : Table} {r : Rule} {o : Outcome} (ho : (t.add r).result = .ok o) : ¬ t.Unfit r := by
  rcases t.add_answers r with ⟨-, hfull⟩ | ⟨-, -, reason, hrefused⟩ | ⟨-, hfit, -⟩
  · rw [hfull] at ho
    cases ho
  · rw [hrefused] at ho
    cases ho
  · exact hfit

theorem size_accepted {t : Table} (h : Valid t) {r : Rule} {o : Outcome} (ho : (t.add r).result = .ok o) :
    (t.store.findSame (t.incoming r)).toList.length + (t.add r).table.size = t.size + 1 := by
  have hcount := countP_accepted h.store ho fun _ => true
  simp only [List.countP_true, if_true] at hcount
  unfold size
  rw [(h.add r).store.count, h.store.count]
  exact hcount

theorem Valid.isEmpty_iff {t : Table} (h : Valid t) : t.store.isEmpty = true ↔ t.rules = [] := by
  rw [h.store.isEmpty_iff, rules, List.map_eq_nil_iff]

/-- **The answers to a deletion and to a query.** -/
theorem named_answers {t : Table} (h : Valid t) (sel : Selector) (c : Classifier) :
    (t.rules = [] ∧ (t.delete sel c).result = .error .tableEmpty ∧ t.query sel c = .error .tableEmpty) ∨
    (t.rules ≠ [] ∧ t.store.find sel c = none ∧ (t.delete sel c).result = .error (.ruleNotFound sel.reportedId c) ∧
      t.query sel c = .error (.ruleNotFound sel.reportedId c)) ∨
    t.rules ≠ [] ∧ ∃ n, t.store.find sel c = some n ∧ (t.delete sel c).result = .ok .deleted ∧ t.query sel c = .ok n.rule := by
  rw [delete_eq, query_eq]
  by_cases he : t.store.isEmpty = true
  · rw [if_pos he, if_pos he]
    exact Or.inl ⟨h.isEmpty_iff.1 he, rfl, rfl⟩
  · rw [if_neg he, if_neg he]
    have hne := mt h.isEmpty_iff.2 he
    cases t.store.find sel c with
    | none => exact Or.inr (Or.inl ⟨hne, rfl, rfl, rfl⟩)
    | some n => exact Or.inr (Or.inr ⟨hne, n, rfl, rfl, rfl⟩)

/-- **The deletion of a node that is found** takes it out of the order of evaluation and out of its chain. -/
theorem delete_of_found {t : Table} (h : Valid t) {sel : Selector} {c : Classifier} {n : Node}
    (hf : t.store.find sel c = some n) : (t.delete sel c).result = .ok .deleted ∧
      (t.delete sel c).table.store.nodes = Node.removeFrom n t.store.nodes ∧
      ∀ k, (t.delete sel c).table.store.index.chain k = Node.removeFrom n (t.store.index.chain k) := by
  have hn := (h.store.of_find hf).1
  have hne : t.store.isEmpty ≠ true := by
    rw [Ne, h.store.isEmpty_iff]
    exact List.ne_nil_of_mem hn
  obtain ⟨s, hr, hnodes, hchains, -⟩ := h.store.remove? hn
  rw [delete_eq]
  rw [if_neg hne, hf]
  dsimp only
  rw [hr]
  exact ⟨rfl, hnodes, hchains⟩

theorem countP_deleted {t : Table} (h : Valid t) {sel : Selector} {c : Classifier} {n : Node}
    (hf : t.store.find sel c = some n) (p : Node → Bool) :
    (t.delete sel c).table.store.nodes.countP p + (if p n then 1 else 0) = t.store.nodes.countP p := by
  obtain ⟨-, hnodes, -⟩ := delete_of_found h hf
  rw [hnodes, ← (Node.removeFrom_perm h.store.distinct (h.store.of_find hf).1).countP_eq p, List.countP_cons]

/-- A query succeeds exactly when a node is found, with its rule. -/
theorem query_eq_ok_iff {t : Table} (h : Valid t) {sel : Selector} {c : Classifier} {r : Rule} :
    t.query sel c = .ok r ↔ ∃ n, t.store.find sel c = some n ∧ n.rule = r := by
  rcases named_answers h sel c with ⟨hr, -, hq⟩ | ⟨-, hf, -, hq⟩ | ⟨-, n, hf, -, hq⟩
  · have hnone : ∀ n, t.store.find sel c ≠ some n := fun n hn => by
      have hmem := List.mem_map_of_mem (f := Node.rule) (h.store.of_find hn).1
      rw [show t.store.nodes.map Node.rule = [] from hr] at hmem
      cases hmem
    rw [hq]
    constructor
    · intro he
      cases he
    · rintro ⟨n, hn, -⟩
      exact absurd hn (hnone n)
  · rw [hq, hf]
    constructor
    · intro he
      cases he
    · rintro ⟨m, hm, -⟩
      cases hm
  · rw [hq, hf]
    exact ⟨fun he => ⟨n, rfl, Except.ok.inj he⟩, fun ⟨m, hm, hrule⟩ => by rw [Option.some.inj hm, hrule]⟩

end Table
end TrafficRules
