import TrafficRules.Proofs.Lookup.Families
/-!
# Turns — which rule is next

A lookup asks its passes in turn, and each pass its matching rules in its own order: `Table.turns` lists them.  The rule
that answers is the first of the first turn that has any (`selects_eq_head`), and the answer is read off that rule alone
(`decide_eq_answer`).  A node that goes is taken out of the turns and leaves their order (`turns_without`).  So a lookup
does not notice one it did not select, and goes on with the next in turn after the one it did
(`deletion_leaves_the_next_in_turn`).
-/
namespace TrafficRules

/-- The answer to a flow that the rule of a node decides. -/
def Node.flowDecision (n : Node) : FlowDecision :=
  match n.rule.classifier with
  | .sawf => Table.sawfDecision n
  | .ifli => Table.ifliDecision n
  | _ => Table.streamDecision n

/-- The first in turn goes: the empty turns before it, the rest of its own and those after it stay as they are. -/
theorem Node.removeFrom_turns {n : Node} {turns : List (List Node)} (h : Distinct turns.flatten)
    (hn : turns.flatten.head? = some n) : ∃ before rest after, turns = before ++ (n :: rest) :: after ∧
      (∀ turn ∈ before, turn = []) ∧ turns.map (removeFrom n) = before ++ rest :: after := by
  obtain ⟨tail, htail⟩ := List.head?_eq_some_iff.1 hn
  obtain ⟨before, rest, after, rfl, hbefore, rfl⟩ := List.flatten_eq_cons_iff.1 htail
  rw [htail] at h
  have hother : ∀ m ∈ rest ++ after.flatten, m.is n = false := fun m hm =>
    (is_eq_false_iff m n).2 ((distinct_cons.1 h).1 m hm)
  have hsame : ∀ {turns : List (List Node)}, (∀ turn ∈ turns, removeFrom n turn = turn) →
      turns.map (removeFrom n) = turns :=
    fun hs => (List.map_congr_left (g := id) hs).trans (List.map_id _)
  have hfirst : before.map (removeFrom n) = before := hsame fun turn ht => by rw [hbefore turn ht]; rfl
  have hself : removeFrom n (n :: rest) = rest :=
    removeFrom_cut (A := []) (fun m hm => nomatch hm) fun m hm => hother m (List.mem_append_left _ hm)
  have hlater : after.map (removeFrom n) = after := hsame fun turn ht =>
    removeFrom_of_none fun m hm => hother m (List.mem_append_right _ (List.mem_flatten_of_mem ht hm))
  refine ⟨before, rest, after, rfl, hbefore, ?_⟩
  rw [List.map_append, List.map_cons, hfirst, hself, hlater]

namespace Table

variable {t : Table}

/-- The nodes that a scan is for, in evaluation order. -/
def scanned (t : Table) (scan : Scan) : List Node := t.store.nodes.filter (scan.accepts t.plugins)

/-- The flow-keyed nodes that a flow is for, in the order of the chain of its hash. -/
def hashed (t : Table) (i : FlowInput) : List Node :=
  (t.store.index.chain i.tuple.hash).filter fun n => n.rule.classifier.isFlowKeyed && n.rule.flow.accepts i .ifli

/-- The nodes that match, one list for each pass. -/
def turns (t : Table) : ClassifyInput → List (List Node)
  | .frame f | .latency f => [t.scanned (.mesh f)]
  | .sawf i => if i.destDev.isSome then [t.scanned (.sawf i), t.scanned (.stream i), t.hashed i] else []
  | .scs i => [t.scanned (.scs i)]
  | .mscs i => [t.scanned (.mscs i)]

/-- The node a lookup answers from. -/
def selects (t : Table) : ClassifyInput → Option Node
  | .frame f | .latency f => t.meshHit f
  | .sawf i => if t.consults i then (t.sawfHit i).or ((t.streamHit i).or (t.ifliHit i)) else none
  | .scs i => t.scsHit i
  | .mscs i => t.mscsHit i

/-- The answer from a node, or without one. -/
def answerFrom (t : Table) : ClassifyInput → Option Node → Decision
  | .frame f, some n =>
    .pcp (match n.rule.output.action? with
      | some (.pcp v) => v
      | some .useUp => f.priority
      | some .useDscp => f.network.dscpPcp.getD t.config.defaultPcp
      | none => t.config.defaultPcp)
  | .frame f, none => .pcp (if t.store.isEmpty then f.network.dscpPcp.getD t.config.defaultPcp else t.config.defaultPcp)
  | .latency _, n => .latency ((n.map (·.rule.latency)).getD {})
  | .sawf _, n => .sawf ((n.map Node.flowDecision).getD {})
  | .scs _, n => .priority (.ofHit (n.map fun n => (n.rule.output.priority, n.rule.id)))
  | .mscs i, n => .priority (.ofHit (n.map fun n => (i.priority, n.rule.id)))

/-- The table without a node. -/
def without (t : Table) (n : Node) : Table := { t with store := (t.store.remove? n).getD t.store }

/-! ## The first in turn -/

theorem selected_eq_head (t : Table) (scan : Scan) : t.selected scan = (t.scanned scan).head? := by
  rw [selected_eq, scanned, List.head?_filter]

theorem ifliHit_eq_head (t : Table) (i : FlowInput) : t.ifliHit i = (t.hashed i).head? := by
  rw [ifliHit_eq, hashed, List.head?_filter]

/-- The nodes of a list are of these families, and no two are one. -/
def Of (t : Table) (cs : List Classifier) (ns : List Node) : Prop :=
  (∀ n ∈ ns, n ∈ t.store.nodes ∧ n.rule.classifier ∈ cs) ∧ Node.Distinct ns

theorem of_scanned (h : Valid t) (scan : Scan) : t.Of scan.families (t.scanned scan) := by
  refine ⟨fun n hn => ?_, h.store.distinct.sublist (List.filter_sublist.map _)⟩
  obtain ⟨hn, ha⟩ := List.mem_filter.1 hn
  exact ⟨hn, Scan.classifier_mem_of_accepts ha⟩

theorem of_hashed (h : Valid t) (i : FlowInput) : t.Of [.ifli] (t.hashed i) := by
  constructor
  · intro n hn
    obtain ⟨hn, ha⟩ := List.mem_filter.1 hn
    rw [Bool.and_eq_true, Classifier.isFlowKeyed_iff] at ha
    exact ⟨(h.store.mem_chain.1 hn).1, List.mem_singleton.2 ha.1⟩
  · obtain ⟨A, B, hnodes, -⟩ := Index.nodes_alter h.store.index i.tuple.hash
    have hchain : Node.Distinct (t.store.index.chain i.tuple.hash) := by
      refine h.store.distinct_index.sublist (List.Sublist.map _ ?_)
      rw [hnodes, List.append_assoc]
      exact (List.sublist_append_left _ _).trans (List.sublist_append_right _ _)
    exact hchain.sublist (List.filter_sublist.map _)

theorem Of.append (h : Valid t) {cs cs' : List Classifier} {ns ns' : List Node} (hn : t.Of cs ns) (hn' : t.Of cs' ns')
    (hc : ∀ c ∈ cs, c ∉ cs') : t.Of (cs ++ cs') (ns ++ ns') := by
  have happart : ∀ n ∈ ns, ∀ m ∈ ns', n.serial ≠ m.serial := by
    intro n hmem m hmem' he
    obtain ⟨hs, hf⟩ := hn.1 n hmem
    obtain ⟨hs', hf'⟩ := hn'.1 m hmem'
    rw [h.store.distinct.eq_of_serial hs hs' he] at hf
    exact hc _ hf hf'
  constructor
  · intro n hmem
    rcases List.mem_append.1 hmem with hmem | hmem
    · exact ⟨(hn.1 n hmem).1, List.mem_append_left _ (hn.1 n hmem).2⟩
    · exact ⟨(hn'.1 n hmem).1, List.mem_append_right _ (hn'.1 n hmem).2⟩
  · unfold Node.Distinct
    rw [List.map_append, List.nodup_append]
    refine ⟨hn.2, hn'.2, List.forall_mem_map.2 fun n hmem => List.forall_mem_map.2 fun m hmem' => ?_⟩
    exact happart n hmem m hmem'

/-- **A node has one turn**, since the passes are for different families. -/
theorem of_turns (h : Valid t) (i : ClassifyInput) : t.Of i.families (t.turns i).flatten := by
  have hscan : ∀ scan, t.Of scan.families [t.scanned scan].flatten := fun scan => by
    rw [List.flatten_singleton]
    exact of_scanned h scan
  cases i with
  | frame f | latency f => exact hscan (.mesh f)
  | scs i => exact hscan (.scs i)
  | mscs i => exact hscan (.mscs i)
  | sawf i =>
    rw [turns]
    by_cases hdev : i.destDev.isSome = true
    · rw [if_pos hdev, List.flatten_cons, List.flatten_cons, List.flatten_singleton]
      have hlater : t.Of [.scs, .sawfScs, .ifli] (t.scanned (.stream i) ++ t.hashed i) :=
        (of_scanned h (.stream i)).append h (of_hashed h i) (by simp [Scan.families])
      exact (of_scanned h (.sawf i)).append h hlater (by simp [Scan.families])
    · rw [if_neg hdev]
      exact ⟨fun n hn => (List.not_mem_nil hn).elim, List.nodup_nil⟩

/-- **A lookup selects the first in turn.** -/
theorem selects_eq_head (h : Valid t) (i : ClassifyInput) : t.selects i = (t.turns i).flatten.head? := by
  have hscan : ∀ scan, t.selected scan = [t.scanned scan].flatten.head? := fun scan => by
    rw [List.flatten_singleton]
    exact selected_eq_head t scan
  cases i with
  | frame f | latency f => exact hscan (.mesh f)
  | scs i => exact hscan (.scs i)
  | mscs i => exact hscan (.mscs i)
  | sawf i =>
    have hsawf : t.sawfHit i = (t.scanned (.sawf i)).head? := selected_eq_head t (.sawf i)
    have hstream : t.streamHit i = (t.scanned (.stream i)).head? := selected_eq_head t (.stream i)
    rw [selects, consults]
    by_cases hdev : i.destDev.isSome = true
    · by_cases he : t.store.isEmpty = true
      · -- nothing matches in a table without rules
        have hnone : (t.turns (.sawf i)).flatten = [] := by
          refine List.eq_nil_iff_forall_not_mem.2 fun n hn => ?_
          have hmem := ((of_turns h _).1 n hn).1
          rw [h.store.isEmpty_iff.1 he] at hmem
          cases hmem
        rw [hnone]
        simp [he]
      · rw [turns, if_pos hdev]
        simp [hdev, he, List.head?_append, hsawf, hstream, ifliHit_eq_head]
    · rw [turns, if_neg hdev]
      simp [hdev]

/-! ## The answer -/

theorem flowDecision_of_sawf {i : FlowInput} {n : Node} (hn : t.sawfHit i = some n) :
    sawfDecision n = n.flowDecision := by
  have hc := (of_selected (.sawf i) hn).2.1
  unfold Node.flowDecision
  rw [hc]

theorem flowDecision_of_stream {i : FlowInput} {n : Node} (hn : t.streamHit i = some n) :
    streamDecision n = n.flowDecision := by
  unfold Node.flowDecision
  rcases (of_selected (.stream i) hn).2.1 with hc | hc <;> rw [hc]

theorem flowDecision_of_ifli {i : FlowInput} {n : Node} (hn : t.ifliHit i = some n) :
    ifliDecision n = n.flowDecision := by
  rw [ifliHit_eq] at hn
  have hboth := List.find?_some hn
  rw [Bool.and_eq_true, Classifier.isFlowKeyed_iff] at hboth
  unfold Node.flowDecision
  rw [hboth.1]

/-- **A lookup answers from the node it selects.** -/
theorem decide_eq_answer (t : Table) (i : ClassifyInput) : t.decide i = t.answerFrom i (t.selects i) := by
  cases i with
  | frame f =>
    show Decision.pcp (t.classifyFrame f) = t.answerFrom (.frame f) (t.meshHit f)
    unfold classifyFrame
    cases t.meshHit f with
    | none =>
      dsimp only [answerFrom]
      by_cases he : t.store.isEmpty = true <;> simp [he]
    | some n => rfl
  | sawf i =>
    show Decision.sawf (t.classifyFlow i) = .sawf (((t.selects (.sawf i)).map Node.flowDecision).getD {})
    rw [classifyFlow, flowDecision?, selects]
    by_cases hc : t.consults i = true
    · rw [if_pos hc, if_pos hc]
      cases hsawf : t.sawfHit i with
      | some n => simp [flowDecision_of_sawf hsawf]
      | none =>
        cases hstream : t.streamHit i with
        | some n => simp [flowDecision_of_stream hstream]
        | none =>
          cases hifli : t.ifliHit i with
          | some n => simp [flowDecision_of_ifli hifli]
          | none => rfl
    · rw [if_neg hc, if_neg hc]
      rfl
  | latency f => rfl
  | scs i => rfl
  | mscs i => rfl

/-! ## A node that goes -/

section Without

variable (h : Valid t) {n : Node} (hn : n ∈ t.store.nodes)
include h hn

theorem store_without : (t.without n).store.nodes = Node.removeFrom n t.store.nodes ∧
    (∀ k, (t.without n).store.index.chain k = Node.removeFrom n (t.store.index.chain k)) ∧ Valid (t.without n) := by
  obtain ⟨s, hs, hnodes, hchains, -, hvalid⟩ := h.store.remove? hn
  unfold without
  rw [hs]
  refine ⟨hnodes, hchains, hvalid, fun m hm => ?_⟩
  rw [Option.getD_some, hnodes] at hm
  exact h.serials m (Node.mem_removeFrom.1 hm).1

/-- **The turns go on without the node**, in their order. -/
theorem turns_without (i : ClassifyInput) : (t.without n).turns i = (t.turns i).map (Node.removeFrom n) := by
  obtain ⟨hnodes, hchains, -⟩ := store_without h hn
  have hscanned : ∀ scan, (t.without n).scanned scan = Node.removeFrom n (t.scanned scan) := by
    intro scan
    unfold scanned
    rw [hnodes]
    exact List.filter_comm _ _ _
  have hhashed : ∀ i, (t.without n).hashed i = Node.removeFrom n (t.hashed i) := by
    intro i
    unfold hashed
    rw [hchains]
    exact List.filter_comm _ _ _
  cases i with
  | sawf i =>
    rw [turns, turns]
    by_cases hdev : i.destDev.isSome = true
    · rw [if_pos hdev, if_pos hdev, hscanned, hscanned, hhashed]
      rfl
    · rw [if_neg hdev, if_neg hdev]
      rfl
  | _ =>
    rw [turns, turns, hscanned]
    rfl

end Without

/-- What is listed of the nodes that are left. -/
theorem selects_without (h : Valid t) {n : Node} (hn : n ∈ t.store.nodes) (i : ClassifyInput) :
    (t.without n).selects i = (Node.removeFrom n (t.turns i).flatten).head? := by
  rw [selects_eq_head (store_without h hn).2.2, turns_without h hn, Node.removeFrom, List.filter_flatten]
  rfl

/-- What is listed is another node, and stays the one. -/
theorem selects_without_other (h : Valid t) {n : Node} (hn : n ∈ t.store.nodes) {i : ClassifyInput}
    (hother : t.selects i ≠ some n) : (t.without n).selects i = t.selects i := by
  rw [selects_without h hn, selects_eq_head h]
  rw [selects_eq_head h] at hother
  cases hflat : (t.turns i).flatten with
  | nil => rfl
  | cons m later =>
    have hm : m ∈ t.store.nodes := ((of_turns h i).1 m (by rw [hflat]; exact List.mem_cons_self)).1
    have hne : m.is n = false := Bool.eq_false_iff.2 fun hs => hother (by
      rw [hflat, h.store.distinct.eq_of_serial hm hn ((Node.is_iff m n).1 hs)]
      rfl)
    rw [Node.removeFrom, List.filter_cons_of_pos (by rw [hne]; rfl)]
    rfl

/-- The answers are read off the node alone, but for that to a frame that none is for. -/
theorem answerFrom_without {n : Node} {hit : Option Node} {i : ClassifyInput}
    (hempty : ∀ f, i = .frame f → hit = none → (t.without n).store.isEmpty = t.store.isEmpty) :
    (t.without n).answerFrom i hit = t.answerFrom i hit := by
  cases i with
  | frame f =>
    cases hit with
    | none =>
      unfold answerFrom
      rw [hempty f rfl rfl]
      rfl
    | some m => rfl
  | _ => rfl

/-- **Deletions go unnoticed by lookups that selected another node**, and the next in turn answers the others. -/
theorem deletion_leaves_the_next_in_turn {t : Table} (h : Reachable t) {n : Node} (hn : n ∈ t.store.nodes)
    (i : ClassifyInput) :
    let t' := t.without n
    t.decide i = t.answerFrom i (t.selects i) ∧ t.selects i = (t.turns i).flatten.head? ∧
    (∀ sel c, t.store.find sel c = some n →
      (t.delete sel c).result = .ok .deleted ∧ (t.delete sel c).table.store = t'.store ∧
        (t.delete sel c).table.decide i = t'.decide i) ∧
    (t.selects i ≠ some n → (∀ f, i = .frame f → t.selects i = none → t'.rules ≠ []) → t'.decide i = t.decide i) ∧
    (t.selects i = some n → ∃ before rest after, t.turns i = before ++ (n :: rest) :: after ∧
      (∀ turn ∈ before, turn = []) ∧ t'.turns i = before ++ rest :: after ∧
      t'.selects i = (rest ++ after.flatten).head? ∧
      t'.decide i = t'.answerFrom i (rest ++ after.flatten).head?) := by
  intro t'
  have hv := h.valid
  have hv' : Valid t' := (store_without hv hn).2.2
  refine ⟨decide_eq_answer t i, selects_eq_head hv i, fun sel c hf => ?_, fun hother hframe => ?_, fun hsel => ?_⟩
  · have he : t.store.isEmpty ≠ true := mt hv.store.isEmpty_iff.1 (List.ne_nil_of_mem hn)
    have htable : (t.delete sel c).table = t'.tally (.deleted 1) := by
      rw [delete_eq, if_neg he, hf]
      rfl
    rw [htable]
    refine ⟨(delete_of_found hv hf).1, rfl, ?_⟩
    cases i <;> rfl
  · rw [decide_eq_answer, decide_eq_answer, selects_without_other hv hn hother]
    refine answerFrom_without fun f hf hnone => ?_
    have he : t.store.isEmpty = false := Bool.eq_false_iff.2 (mt hv.store.isEmpty_iff.1 (List.ne_nil_of_mem hn))
    have he' : t'.store.isEmpty = false := Bool.eq_false_iff.2 (mt hv'.isEmpty_iff.1 (hframe f hf hnone))
    rw [he, he']
  · rw [selects_eq_head hv] at hsel
    obtain ⟨before, rest, after, hturns, hbefore, hleft⟩ := Node.removeFrom_turns (of_turns hv i).2 hsel
    have hturns' : t'.turns i = before ++ rest :: after := (turns_without hv hn i).trans hleft
    have hnext : t'.selects i = (rest ++ after.flatten).head? := by
      have hnone : before.flatten = [] := List.flatten_eq_nil_iff.2 hbefore
      rw [selects_eq_head hv', hturns', List.flatten_append, hnone, List.nil_append, List.flatten_cons]
    exact ⟨before, rest, after, hturns, hbefore, hturns', hnext, by rw [decide_eq_answer, hnext]⟩

/-- The flow that the service-aware rule answers goes on to the stream rule behind it, and does not notice if that one
goes. -/
theorem deletion_leaves_the_next_in_turn_underOneKey :
    let i := ClassifyInput.sawf { srcPort := 2, destDev := some "eth0" }
    let n : Node := ⟨1, { id := 2, classifier := .sawf, precedence := 7 }⟩
    let next : Node := ⟨4, { id := 2, classifier := .scs, precedence := 0 }⟩
    n ∈ underOneKey.store.nodes ∧ next ∈ underOneKey.store.nodes ∧ underOneKey.selects i = some n ∧
    (underOneKey.delete (.id 2) .sawf).table.decide i = (underOneKey.without n).decide i ∧
    (underOneKey.without n).decide i = (underOneKey.without n).answerFrom i (some next) ∧
    (underOneKey.without next).decide i = underOneKey.decide i := by
  intro i n next
  have hn : n ∈ underOneKey.store.nodes := by decide +kernel
  have hm : next ∈ underOneKey.store.nodes := by decide +kernel
  have hsel : underOneKey.selects i = some n := by decide +kernel
  obtain ⟨-, -, hdelete, -, hnext⟩ := deletion_leaves_the_next_in_turn reachable_underOneKey hn i
  obtain ⟨-, -, -, hsame, -⟩ := deletion_leaves_the_next_in_turn reachable_underOneKey hm i
  obtain ⟨before, rest, after, -, -, -, hselects, hanswer⟩ := hnext hsel
  have hleft : (underOneKey.without n).selects i = some next := by decide +kernel
  rw [← hselects, hleft] at hanswer
  have hother : underOneKey.selects i ≠ some next := by decide +kernel
  refine ⟨hn, hm, hsel, (hdelete (.id 2) .sawf (by decide +kernel)).2.2, hanswer, hsame hother fun f hf => ?_⟩
  cases (show ClassifyInput.sawf _ = .frame f from hf)

end Table
end TrafficRules
