import TrafficRules.Engine.Command
import TrafficRules.Proofs.Table.Beside
import TrafficRules.Proofs.Table.Named
/-!
# RoundTrip — a rule is found under the name it was added by

A request names its rule by a selector (`Rule.selector`), and an addition looks for the node its rule stands for.  The two
mean the same nodes (`names_selector_iff`), and they look in the same chain but for a flow-keyed rule with an id, which is
named wherever it is stored (`find_selector`).  So a rule just added is what its selector finds, unless a rule under
another hash has its id, and beside a rule named by its id everything is found as before (`add_query_round_trip`).
-/
namespace TrafficRules

theorem Rule.selector_of_unnamed {r : Rule} (hc : r.classifier.isFlowKeyed = true) (hi : r.id = noRuleId) :
    r.selector = .flow r.flow.tuple := by
  unfold selector
  rw [hc, hi]
  rfl

theorem Rule.selector_of_named {r : Rule} (h : ¬ (r.classifier.isFlowKeyed = true ∧ r.id = noRuleId)) :
    r.selector = .id r.id := by
  unfold selector
  rw [if_neg (by simpa using h)]

/-- **The selector of a rule names what the rule stands for**, whatever family it is of. -/
theorem names_selector_iff (k : Nat) {r : Rule} {n : Node} :
    r.selector.names r.classifier n = true ↔ n.sameIdentity (Node.ofRule k r) = true := by
  rw [Node.sameIdentity_iff]
  show _ ↔ n.rule.classifier = r.classifier ∧
    if r.classifier.isFlowKeyed = true ∧ r.id = noRuleId then n.rule.flow.tuple = r.flow.tuple else n.rule.id = r.id
  by_cases h : r.classifier.isFlowKeyed = true ∧ r.id = noRuleId
  · rw [Rule.selector_of_unnamed h.1 h.2, if_pos h]
    unfold Selector.names
    rw [Bool.and_eq_true, beq_iff_eq, beq_iff_eq]
    refine and_congr_right fun hc => ?_
    have hn : n.rule.classifier.isFlowKeyed = true := by rw [hc]; exact h.1
    rw [Node.tuple?_of_flowKeyed hn, Option.some.injEq]
  · rw [Rule.selector_of_named h, if_neg h]
    exact Table.names_id_iff

theorem Rule.isKeyed_selector {r : Rule} (hr : r.classifier = .ifli → r.id = noRuleId) :
    r.selector.isKeyed r.classifier = true := by
  by_cases hc : r.classifier.isFlowKeyed = true
  · rw [selector_of_unnamed hc (hr (Classifier.isFlowKeyed_iff.1 hc))]
    rfl
  · rw [selector_of_named fun h => hc h.1]
    simp [Selector.isKeyed, hc]

/-- **What a request looks for is what its addition would take the place of.** -/
theorem Store.find_selector (s : Store) (k : Nat) {r : Rule} (hr : r.classifier = .ifli → r.id = noRuleId) :
    s.find r.selector r.classifier = s.findSame (Node.ofRule k r) := by
  have hkeyed := Rule.isKeyed_selector hr
  have hname := (names_selector_iff k).2 (Node.ofRule k r).sameIdentity_self
  unfold findSame
  rw [find_of_keyed hkeyed, Node.key_of_names hkeyed hname]
  congr 1
  funext n
  exact Bool.eq_iff_iff.2 (names_selector_iff k)

namespace Table

variable {t : Table} {r : Rule} {o : Outcome}

/-- A flow-keyed rule with an id that no rule under another hash has leaves it so. -/
theorem key_of_named_added (h : Reachable t) (ho : (t.add r).result = .ok o)
    (hk : ∀ x ∈ t.rules, x.classifier = .ifli → x.id = r.id → x.key = r.key) {m : Node}
    (hm : m ∈ (t.add r).table.store.nodes) (hname : (Selector.id r.id).names .ifli m = true) : m.key = r.key := by
  rw [store_of_accepted ho] at hm
  rcases h.valid.store.mem_put hm with rfl | hm
  · rfl
  · obtain ⟨hmc, hmi⟩ := names_id_iff.1 hname
    exact hk m.rule (List.mem_map_of_mem hm) hmc hmi

/-- A flow-keyed rule with an id is found by the id once no rule under another hash has it. -/
theorem find_named_added (h : Reachable t) (ho : (t.add r).result = .ok o) (hc : r.classifier = .ifli)
    (hi : r.id ≠ noRuleId) (hk : ∀ x ∈ t.rules, x.classifier = .ifli → x.id = r.id → x.key = r.key) :
    (t.add r).table.store.find (.id r.id) .ifli = some (t.incoming r) := by
  have h' := h.add r
  have hname : (Selector.id r.id).names .ifli (t.incoming r) = true := names_id_iff.2 ⟨hc, rfl⟩
  have hnew : t.incoming r ∈ (t.add r).table.store.nodes := by
    rw [store_of_accepted ho]
    exact h.valid.store.mem_put_self _
  -- under its own hash the rule is the only one of its id, and under no other hash is there one
  have hone := countP_named_key_le_one h' hi r.key
  cases hf : (t.add r).table.store.find (.id r.id) .ifli with
  | none =>
    have hnot := (h'.valid.store.find_id_eq_none_iff hi).1 hf _ hnew
    rw [hname] at hnot
    cases hnot
  | some m =>
    obtain ⟨hm, hmname⟩ := h'.valid.store.of_find hf
    refine congrArg some (Node.eq_of_countP_le_one hone hm hnew ?_ ?_)
    · rw [hmname, key_of_named_added h ho hk hm hmname, beq_self_eq_true]
      rfl
    · rw [hname, key_of_named_added h ho hk hnew hname, beq_self_eq_true]
      rfl

/-- **A rule just added is what its selector finds.** -/
theorem find_added (h : Reachable t) (ho : (t.add r).result = .ok o)
    (hk : r.classifier = .ifli → r.id ≠ noRuleId → ∀ x ∈ t.rules, x.classifier = .ifli → x.id = r.id → x.key = r.key) :
    (t.add r).table.store.find r.selector r.classifier = some (t.incoming r) := by
  by_cases hnamed : r.classifier = .ifli ∧ r.id ≠ noRuleId
  · obtain ⟨hc, hi⟩ := hnamed
    rw [Rule.selector_of_named fun hu => hi hu.2, hc]
    exact find_named_added h ho hc hi (hk hc hi)
  · have hr : r.classifier = .ifli → r.id = noRuleId := fun hc => not_not.1 fun hi => hnamed ⟨hc, hi⟩
    rw [Store.find_selector _ t.nextSerial hr, store_of_accepted ho]
    exact h.valid.store.findSame_put (t.incoming r)

theorem add_agreeOn (h : Reachable t) (ho : (t.add r).result = .ok o) (hc : r.classifier.isFlowKeyed = false) :
    Store.AgreeOn (fun n => !(Selector.id r.id).names r.classifier n) t.store (t.add r).table.store := by
  have hname : (Selector.id r.id).names r.classifier (t.incoming r) = true := names_id_iff.2 ⟨rfl, rfl⟩
  rw [store_of_accepted ho]
  refine .put h.valid.store ?_ fun old hf => ?_
  · rw [hname]
    rfl
  · rw [names_id_iff.2 (named_of_findSame h hf hc)]
    rfl

/-- **A rule that was added is queried back**, with the precedence it is stored at, whether it is new, stands in the place
of another or has moved to another precedence; for a flow-keyed rule with an id, no rule under another hash may have the
id.  And an addition to a family named by id shows in no other query by id and in no query by tuple. -/
theorem add_query_round_trip {t : Table} (h : Reachable t) {r : Rule} {o : Outcome} (ho : (t.add r).result = .ok o)
    (hk : r.classifier = .ifli → r.id ≠ noRuleId → ∀ x ∈ t.rules, x.classifier = .ifli → x.id = r.id → x.key = r.key) :
    let t' := (t.add r).table
    t'.query r.selector r.classifier = .ok { r with precedence := if r.precedence = 255 then 0 else r.precedence } ∧
    (r.classifier ≠ .ifli →
      (∀ c i, c ≠ .ifli → (c, i) ≠ (r.classifier, r.id) → ∀ x, t'.query (.id i) c = .ok x ↔ t.query (.id i) c = .ok x) ∧
      ∀ tuple c x, t'.query (.flow tuple) c = .ok x ↔ t.query (.flow tuple) c = .ok x) := by
  intro t'
  have h' := h.add r
  refine ⟨(query_eq_ok_iff h'.valid).2 ⟨_, find_added h ho hk, r.normalized_eq⟩, fun hc => ?_⟩
  have hc := Classifier.isFlowKeyed_eq_false_iff.2 hc
  have ha := add_agreeOn h ho hc
  constructor
  · intro c i hci hne x
    refine query_agrees h.valid h'.valid ha (by simp [Selector.isKeyed, Classifier.isFlowKeyed_eq_false_iff.2 hci]) (fun n hn => ?_) x
    rw [Bool.not_eq_true', Bool.eq_false_iff]
    intro hname
    obtain ⟨rfl, rfl⟩ := names_id_iff.1 hn
    obtain ⟨hcn, hin⟩ := names_id_iff.1 hname
    exact hne (Prod.ext hcn hin)
  · intro tuple c x
    refine query_agrees h.valid h'.valid ha rfl (fun n hn => ?_) x
    rw [Bool.not_eq_true', Bool.eq_false_iff]
    intro hname
    have hflow := Node.isFlowKeyed_of_names hn
    rw [Node.classifier_of_names hname, hc] at hflow
    cases hflow

/-- A rule that moves to another precedence, and a flow-keyed one that moves to another tuple of its hash, both in a chain
with rules of other families. -/
theorem add_query_round_trip_underOneKey :
    let moved : Rule := { id := 2, classifier := .sawf, precedence := 255 }
    let turned : Rule := { id := 5, classifier := .ifli, precedence := 3, flow := { srcPort := some 2 } }
    let t := (underOneKey.add { turned with flow := { dstPort := some 2 } }).table
    (t.add moved).table.query (.id 2) .sawf = .ok { moved with precedence := 0 } ∧
    (t.add turned).table.query (.id 5) .ifli = .ok turned ∧
    ∀ x, (t.add moved).table.query (.id 2) .scs = .ok x ↔ t.query (.id 2) .scs = .ok x := by
  intro moved turned t
  have h : Reachable t := reachable_underOneKey.add _
  have hmoved : (t.add moved).result = .ok (.modified none) := by decide +kernel
  have hturned : (t.add turned).result = .ok (.modified (some 2)) := by decide +kernel
  obtain ⟨hback, hother⟩ := add_query_round_trip h hmoved fun hc => by cases hc
  have hkey : ∀ x ∈ t.rules, x.classifier = .ifli → x.id = turned.id → x.key = turned.key := by decide +kernel
  obtain ⟨hturn, -⟩ := add_query_round_trip h hturned fun _ _ => hkey
  exact ⟨hback, hturn, (hother (by decide)).1 .scs 2 (by decide) (by decide)⟩

end Table
end TrafficRules
