import TrafficRules.Proofs.Lookup.Hashed
import TrafficRules.Proofs.Lookup.Scanned
import TrafficRules.Proofs.Table.Beside
/-!
# Families — a change of one family and the lookups of the others

The families share the buckets, and they share the chains: the id of a rule may be the id of a rule of another family or
the hash of a flow.  Still every scan and every search in a chain asks for the family of a node first, so what it answers
depends on the nodes of its own families only.  A change of one family is not seen by the lookups and queries of the
others (`families_apart`), with one exception: a frame is answered otherwise on an empty table.
-/
namespace TrafficRules

namespace Scan

/-- The families a scan asks for. -/
def families : Scan → List Classifier
  | mesh _ => [.mesh]
  | sawf _ => [.sawf]
  | stream _ => [.scs, .sawfScs]
  | scs _ => [.scs]
  | mscs _ => [.mscs]

theorem classifier_mem_of_accepts {p : Plugins} {scan : Scan} {n : Node} (h : scan.accepts p n = true) :
    n.rule.classifier ∈ scan.families := by
  have hm := accepts_iff.1 h
  cases scan with
  | stream i => exact List.mem_pair.2 hm.1
  | _ => exact List.mem_singleton.2 hm.1

end Scan

/-- The families a lookup consults. -/
def ClassifyInput.families : ClassifyInput → List Classifier
  | .frame _ | .latency _ => [.mesh]
  | .sawf _ => [.sawf, .scs, .sawfScs, .ifli]
  | .scs _ => [.scs]
  | .mscs _ => [.mscs]

namespace Table

/-- On a table without rules nothing is hit, so it makes no difference that a flow is not looked up there. -/
theorem classifyFlow_eq {t : Table} (h : Valid t) (i : FlowInput) :
    t.classifyFlow i = if i.destDev.isSome then (t.flowDecision? i).getD {} else {} := by
  unfold classifyFlow consults
  by_cases he : t.store.isEmpty = true
  · have hnodes := h.store.isEmpty_iff.1 he
    have hscan : ∀ scan, t.selected scan = none := fun scan => by rw [selected_eq, hnodes]; rfl
    have hchain : ∀ k, t.store.index.chain k = [] := fun k => List.eq_nil_iff_forall_not_mem.2 fun n hn => by
      have hmem := (h.store.mem_chain.1 hn).1
      rw [hnodes] at hmem
      cases hmem
    have hsawf : t.sawfHit i = none := hscan (.sawf i)
    have hstream : t.streamHit i = none := hscan (.stream i)
    have hifli : t.ifliHit i = none := by rw [ifliHit_eq, hchain]; rfl
    have hnone : t.flowDecision? i = none := by
      unfold flowDecision?
      rw [hsawf, hstream, hifli]
      rfl
    simp [he, hnone]
  · simp [he]

/-! ## Tables that agree on a kind of nodes -/

section Agree

variable {t t' : Table} {p : Node → Bool} (ha : Store.AgreeOn p t.store t'.store)
include ha

theorem selected_agrees (hp : t'.plugins = t.plugins) {scan : Scan} (hs : ∀ n, scan.accepts t.plugins n = true → p n = true) :
    t'.selected scan = t.selected scan := by
  rw [selected_eq, selected_eq, hp]
  exact ha.find?_nodes hs

theorem ifliHit_agrees (hs : ∀ n : Node, n.rule.classifier = .ifli → p n = true) (i : FlowInput) :
    t'.ifliHit i = t.ifliHit i := by
  rw [ifliHit_eq, ifliHit_eq]
  refine ha.find?_chain (fun n hn => hs n ?_) _
  rw [Bool.and_eq_true, Classifier.isFlowKeyed_iff] at hn
  exact hn.1

theorem flowDecision_agrees (hp : t'.plugins = t.plugins) {i : FlowInput}
    (hsawf : ∀ n, (Scan.sawf i).accepts t.plugins n = true → p n = true)
    (hstream : ∀ n, (Scan.stream i).accepts t.plugins n = true → p n = true)
    (hifli : ∀ n : Node, n.rule.classifier = .ifli → p n = true) : t'.flowDecision? i = t.flowDecision? i := by
  have h₁ : t'.sawfHit i = t.sawfHit i := selected_agrees ha hp hsawf
  have h₂ : t'.streamHit i = t.streamHit i := selected_agrees ha hp hstream
  have h₃ : t'.ifliHit i = t.ifliHit i := ifliHit_agrees ha hifli i
  unfold flowDecision?
  rw [h₁, h₂, h₃]

end Agree

/-! ## Tables that differ in one family -/

section Apart

variable {t t' : Table} {c : Classifier} (ha : Store.AgreeOn (Store.spared (some c)) t.store t'.store)
include ha

theorem selected_apart (hp : t'.plugins = t.plugins) (scan : Scan) (hc : c ∉ scan.families) :
    t'.selected scan = t.selected scan := by
  refine selected_agrees ha hp fun n hn => Store.spared_some_iff.2 ?_
  rintro rfl
  exact hc (Scan.classifier_mem_of_accepts hn)

theorem flowDecision_apart (hp : t'.plugins = t.plugins) {i : FlowInput} (hc : c ∉ (ClassifyInput.sawf i).families) :
    t'.flowDecision? i = t.flowDecision? i := by
  have hscan : ∀ scan : Scan, (∀ d ∈ scan.families, d ∈ (ClassifyInput.sawf i).families) →
      ∀ n, scan.accepts t.plugins n = true → Store.spared (some c) n = true := by
    intro scan hscan n hn
    refine Store.spared_some_iff.2 fun he => hc ?_
    rw [← he]
    exact hscan _ (Scan.classifier_mem_of_accepts hn)
  refine flowDecision_agrees ha hp (hscan _ (by simp [Scan.families, ClassifyInput.families]))
    (hscan _ (by simp [Scan.families, ClassifyInput.families])) fun n hn => Store.spared_some_iff.2 fun he => hc ?_
  rw [← he, hn]
  simp [ClassifyInput.families]

/-- A frame needs a rule of some family before and after, since a table without rules answers it from its DS field. -/
theorem decide_apart (hs : t'.config = t.config ∧ t'.plugins = t.plugins) (h : Valid t) (h' : Valid t') {i : ClassifyInput}
    (hc : c ∉ i.families) (hframe : ∀ f, i = .frame f → t.rules ≠ [] ∧ t'.rules ≠ []) : t'.decide i = t.decide i := by
  obtain ⟨hconfig, hplugins⟩ := hs
  cases i with
  | frame f =>
    obtain ⟨hne, hne'⟩ := hframe f rfl
    have hempty : t.store.isEmpty = false := Bool.eq_false_iff.2 (mt h.isEmpty_iff.1 hne)
    have hempty' : t'.store.isEmpty = false := Bool.eq_false_iff.2 (mt h'.isEmpty_iff.1 hne')
    have hhit : t'.meshHit f = t.meshHit f := selected_apart ha hplugins (.mesh f) hc
    show Decision.pcp (t'.classifyFrame f) = .pcp (t.classifyFrame f)
    unfold classifyFrame
    rw [hhit, hconfig, hempty, hempty']
  | latency f =>
    have hhit : t'.meshHit f = t.meshHit f := selected_apart ha hplugins (.mesh f) hc
    show Decision.latency (t'.latencyOf f) = .latency (t.latencyOf f)
    unfold latencyOf
    rw [hhit]
  | sawf i =>
    show Decision.sawf (t'.classifyFlow i) = .sawf (t.classifyFlow i)
    rw [classifyFlow_eq h, classifyFlow_eq h', flowDecision_apart ha hplugins hc]
  | scs i =>
    have hhit : t'.scsHit i = t.scsHit i := selected_apart ha hplugins (.scs i) hc
    show Decision.priority (t'.classifyScs i) = .priority (t.classifyScs i)
    unfold classifyScs
    rw [hhit]
  | mscs i =>
    have hhit : t'.mscsHit i = t.mscsHit i := selected_apart ha hplugins (.mscs i) hc
    show Decision.priority (t'.classifyMscs i) = .priority (t.classifyMscs i)
    unfold classifyMscs
    rw [hhit]

theorem filter_rules_apart {c' : Classifier} (hc : c' ≠ c) :
    t'.rules.filter (·.classifier == c') = t.rules.filter (·.classifier == c') := by
  have hsub : ∀ ns : List Node, ns.filter (·.rule.classifier == c') =
      (ns.filter (Store.spared (some c))).filter (·.rule.classifier == c') := fun ns =>
    (Node.filter_filter_of_imp fun n _ hn => Store.spared_some_iff.2 (by rw [beq_iff_eq.1 hn]; exact hc)).symm
  rw [filter_rules, filter_rules, hsub, hsub t.store.nodes, ha.nodes]

end Apart

/-- **Families do not interfere.**  After any addition, deletion or flush of a rule or rules of one family, every lookup
that does not consult the family answers every input as before, a frame if there are rules before and after; and of every
other family the same rules are listed in the same order, and the same queries by id or, for a flow-keyed family, by tuple
find the same rules. -/
theorem families_apart {t : Table} (h : Reachable t) {call : Call} {c : Classifier} (hc : call.family? = some c) :
    let t' := (t.step call).1
    (∀ i : ClassifyInput, c ∉ i.families → (∀ f, i = .frame f → t.rules ≠ [] ∧ t'.rules ≠ []) → t'.decide i = t.decide i) ∧
    ∀ c' ≠ c, t'.rules.filter (·.classifier == c') = t.rules.filter (·.classifier == c') ∧
      ∀ sel : Selector, sel.isKeyed c' = true → ∀ r, t'.query sel c' = .ok r ↔ t.query sel c' = .ok r := by
  intro t'
  have h' := step_reachable h call
  have ha := step_agreeOn h hc
  refine ⟨fun i hi hframe => decide_apart ha (step_settings hc t) h.valid h'.valid hi hframe, fun c' hne => ?_⟩
  refine ⟨filter_rules_apart ha hne, fun sel hk r => query_agrees h.valid h'.valid ha hk (fun n hn => ?_) r⟩
  rw [Store.spared_some_iff, Node.classifier_of_names hn]
  exact hne

/-- The rule that goes shares its bucket with one and its chain with two of other families, which are found as before. -/
theorem families_apart_underOneKey : (Call.delete (.id 2) .sawf).family? = some .sawf ∧
    (underOneKey.delete (.id 2) .sawf).result = .ok .deleted ∧
    (underOneKey.delete (.id 2) .sawf).table.decide (.scs {}) = .priority ⟨some 9, some 2⟩ ∧
    (underOneKey.delete (.id 2) .sawf).table.rules.filter (·.classifier == .ifli) =
      underOneKey.rules.filter (·.classifier == .ifli) ∧
    ∀ r, (underOneKey.delete (.id 2) .sawf).table.query (.id 2) .scs = .ok r ↔ underOneKey.query (.id 2) .scs = .ok r := by
  have hcall : (Call.delete (.id 2) .sawf).family? = some .sawf := rfl
  obtain ⟨hlookup, hother⟩ := families_apart reachable_underOneKey hcall
  refine ⟨hcall, by decide +kernel, ?_, (hother .ifli (by decide)).1, (hother .scs (by decide)).2 (.id 2) rfl⟩
  refine (hlookup (.scs {}) (by decide) fun f hf => by cases hf).trans ?_
  decide +kernel

/-- The first rule of another family takes the DS field away from a frame without a match. -/
example : (({} : Table).decide (.frame { network := .ipv6 0xe0 }),
    (({} : Table).add { id := 1, classifier := .scs }).table.decide (.frame { network := .ipv6 0xe0 })) = (.pcp 7, .pcp 0) := by
  decide +kernel

end Table
end TrafficRules
