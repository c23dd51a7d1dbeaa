import TrafficRules.Lookup
import TrafficRules.Proofs.Flow.Exact
import TrafficRules.Proofs.Table.Arrival
/-!
# Hashed — flow-keyed rules found by the hash of a flow

A flow is compared with the flow-keyed rules under the hash of its tuple only.  In a reachable table these are all the
stored ones of the hash, so the lookup hits exactly when a scan of the rules of the hash does; and where the matches
are exact no rule of another hash accepts the flow, so it hits exactly when a scan of all rules does
(`ifli_hit_iff_scan`).  Of the rules that match it selects the first to arrive (`ifli_hit_first_come`): a chain is not
in the order of precedence, and one of higher precedence that came later is passed over (`ifli_hit_outranked`).
-/
namespace TrafficRules

namespace Rule

/-- The rule is flow-keyed, accepts the flow and is stored under the hash of its tuple. -/
def matchesHashed (i : FlowInput) (r : Rule) : Bool :=
  r.classifier == .ifli && r.flow.accepts i .ifli && r.key == i.tuple.hash

theorem matchesHashed_iff {i : FlowInput} {r : Rule} :
    r.matchesHashed i = true ↔ r.classifier = .ifli ∧ r.flow.accepts i .ifli = true ∧ r.key = i.tuple.hash := by
  unfold matchesHashed
  rw [Bool.and_eq_true, Bool.and_eq_true, beq_iff_eq, beq_iff_eq, and_assoc]

theorem key_of_ifli {r : Rule} (hc : r.classifier = .ifli) : r.key = r.flow.tuple.hash := by
  simp [key, flowTuple?, hc, Classifier.isFlowKeyed]

theorem key_eq_of_accepts {r : Rule} {i : FlowInput} (hc : r.classifier = .ifli) (hx : r.flow.isExact = true)
    (ha : r.flow.accepts i .ifli = true) : r.key = i.tuple.hash := by
  rw [key_of_ifli hc, FlowMatch.tuple_eq_of_accepts hx ha]

end Rule

namespace Table

theorem ifliHit_eq (t : Table) (i : FlowInput) :
    t.ifliHit i = (t.store.index.chain i.tuple.hash).find? fun n =>
      n.rule.classifier.isFlowKeyed && n.rule.flow.accepts i .ifli := by
  unfold ifliHit Store.flowChain
  exact Node.find?_filter _ _ _

theorem ifliHit_isSome_iff {t : Table} (h : Reachable t) (i : FlowInput) :
    (t.ifliHit i).isSome = true ↔ ∃ r ∈ t.rules, r.matchesHashed i = true := by
  rw [ifliHit_eq, List.find?_isSome]
  constructor
  · rintro ⟨n, hn, ha⟩
    obtain ⟨hn, hk⟩ := h.valid.store.mem_chain.1 hn
    rw [Bool.and_eq_true, Classifier.isFlowKeyed_iff] at ha
    exact ⟨n.rule, List.mem_map_of_mem hn, Rule.matchesHashed_iff.2 ⟨ha.1, ha.2, hk⟩⟩
  · rintro ⟨r, hr, hm⟩
    obtain ⟨n, hn, rfl⟩ := List.mem_map.1 hr
    obtain ⟨hc, ha, hk⟩ := Rule.matchesHashed_iff.1 hm
    refine ⟨n, h.valid.store.mem_chain.2 ⟨hn, hk⟩, ?_⟩
    rw [Bool.and_eq_true, Classifier.isFlowKeyed_iff]
    exact ⟨hc, ha⟩

/-- **The lookup by hash hits exactly when a scan of the flow-keyed rules of the hash does.**  An exact rule that
accepts a flow has the tuple and the hash of the flow, so among exact rules it hits exactly when a scan of all does. -/
theorem ifli_hit_iff_scan {t : Table} (h : Reachable t) (i : FlowInput) :
    ((t.ifliHit i).isSome = true ↔
      ∃ r ∈ t.rules, r.classifier = .ifli ∧ r.flow.accepts i .ifli = true ∧ r.key = i.tuple.hash) ∧
    (∀ r : Rule, r.classifier = .ifli → r.flow.isExact = true → r.flow.accepts i .ifli = true →
      r.flow.tuple = i.tuple ∧ r.key = i.tuple.hash) ∧
    ((∀ r ∈ t.rules, r.classifier = .ifli → r.flow.isExact = true) →
      ((t.ifliHit i).isSome = true ↔ ∃ r ∈ t.rules, r.classifier = .ifli ∧ r.flow.accepts i .ifli = true)) := by
  have hscan : (t.ifliHit i).isSome = true ↔
      ∃ r ∈ t.rules, r.classifier = .ifli ∧ r.flow.accepts i .ifli = true ∧ r.key = i.tuple.hash := by
    simp only [ifliHit_isSome_iff h, Rule.matchesHashed_iff]
  refine ⟨hscan, fun r hc hx ha => ⟨FlowMatch.tuple_eq_of_accepts hx ha, Rule.key_eq_of_accepts hc hx ha⟩, fun hx => ?_⟩
  rw [hscan]
  refine exists_congr fun r => and_congr_right fun hr => ?_
  exact ⟨fun ⟨hc, ha, _⟩ => ⟨hc, ha⟩, fun ⟨hc, ha⟩ => ⟨hc, ha, Rule.key_eq_of_accepts hc (hx r hr hc) ha⟩⟩

/-- A rule for one flow of each version, the IPv6 one masked by ones. -/
def exactPair : Table :=
  let ones : Ipv6 := ⟨⟨0xffffffff, 0xffffffff, 0xffffffff, 0xffffffff⟩⟩
  let t := (({} : Table).add { classifier := .ifli, flow := {
    srcIpv4 := some { addr := ⟨0x0a000001⟩ }, dstIpv4 := some { addr := ⟨0x0a000002⟩ }
    srcPort := some 4000, dstPort := some 53, protocol := some 17 } }).table
  (t.add { id := 7, classifier := .ifli, flow := {
    srcIpv6 := some { addr := ⟨⟨0x20010db8, 0, 0, 1⟩⟩, mask := some ones }
    dstIpv6 := some { addr := ⟨⟨0x20010db8, 0, 0, 2⟩⟩ }
    srcPort := some 4000, dstPort := some 53, protocol := some 17 } }).table

/-- The flow the second rule is for. -/
def exactFlow : FlowInput where
  srcIp := some (.v6 ⟨⟨0x20010db8, 0, 0, 1⟩⟩)
  dstIp := some (.v6 ⟨⟨0x20010db8, 0, 0, 2⟩⟩)
  srcPort := 4000
  dstPort := 53
  protocol := 17

theorem ifli_hit_iff_scan_exactPair :
    (∀ r ∈ exactPair.rules, r.classifier = .ifli → r.flow.isExact = true) ∧ exactPair.rules.length = 2 ∧
    (exactPair.ifliHit exactFlow).isSome = true ∧
    ((exactPair.ifliHit { exactFlow with dstPort := 54 }).isSome = true ↔
      ∃ r ∈ exactPair.rules, r.classifier = .ifli ∧ r.flow.accepts { exactFlow with dstPort := 54 } .ifli = true) := by
  have h : Reachable exactPair := .add _ (.add _ (.fresh {} {}))
  have hx : ∀ r ∈ exactPair.rules, r.classifier = .ifli → r.flow.isExact = true := by decide +kernel
  refine ⟨hx, by decide +kernel, ?_, (ifli_hit_iff_scan h _).2.2 hx⟩
  exact ((ifli_hit_iff_scan h exactFlow).2.2 hx).2 (by decide +kernel)

/-! ## Which rule is selected -/

/-- The nodes that match a flow, in the order of their arrival. -/
def matchingArrivals (arrival : List Node) (i : FlowInput) : List Node := arrival.filter (·.rule.matchesHashed i)

theorem InArrival.ifliHit_eq_head {t : Table} {arrival : List Node} (h : InArrival t arrival) (i : FlowInput) :
    t.ifliHit i = (matchingArrivals arrival i).head? := by
  unfold matchingArrivals
  rw [List.head?_filter, ifliHit_eq, h.chains, Node.find?_filter]
  congr 1
  funext n
  rw [Bool.eq_iff_iff, Rule.matchesHashed_iff]
  simp only [Bool.and_eq_true, beq_iff_eq, Classifier.isFlowKeyed_iff]
  exact ⟨fun ⟨hk, hc, ha⟩ => ⟨hc, ha, hk⟩, fun ⟨hc, ha, hk⟩ => ⟨hk, hc, ha⟩⟩

/-- **The lookup by hash is first come, first served.**  After any run it selects the first to arrive of the stored
rules that match, whatever their precedence; so the selected rule has the highest precedence among them exactly when
none that came later has a higher one. -/
theorem ifli_hit_first_come (config : TableConfig) (plugins : Plugins) (cs : List Call) (i : FlowInput) :
    let t := (run cs { config, plugins }).1
    let matching := matchingArrivals (arrivals cs { config, plugins } []) i
    (∀ n, n ∈ matching ↔ n ∈ t.store.nodes ∧ n.rule.matchesHashed i = true) ∧ t.ifliHit i = matching.head? ∧
    ∀ n, t.ifliHit i = some n →
      ((∀ m ∈ t.store.nodes, m.rule.matchesHashed i = true → m.rule.precedence ≤ n.rule.precedence) ↔
        ∀ m ∈ matching.tail, m.rule.precedence ≤ n.rule.precedence) := by
  intro t matching
  have h : InArrival t _ := run_inArrival cs (.fresh config plugins) (inArrival_fresh config plugins)
  have hmem : ∀ n, n ∈ matching ↔ n ∈ t.store.nodes ∧ n.rule.matchesHashed i = true := fun n => by
    rw [← Stands.mem_arrival h]
    exact List.mem_filter
  have hhead := h.ifliHit_eq_head i
  refine ⟨hmem, hhead, fun n hn => ?_⟩
  obtain ⟨later, hlater⟩ : ∃ later, matching = n :: later := List.head?_eq_some_iff.1 (hhead.symm.trans hn)
  have hle : (∀ m ∈ matching, m.rule.precedence ≤ n.rule.precedence) ↔
      ∀ m ∈ matching.tail, m.rule.precedence ≤ n.rule.precedence := by
    rw [hlater, List.forall_mem_cons]
    exact and_iff_right (UInt8.le_refl _)
  rw [← hle]
  exact forall_congr' fun m => by rw [hmem, and_imp]

/-- A rule, and one of the same match and a higher precedence after it. -/
def outranked : List Call :=
  [.add { id := 6, classifier := .ifli, precedence := 1, flow := { dstPort := some 80 } },
    .add { id := 7, classifier := .ifli, precedence := 9, flow := { dstPort := some 80 } }]

/-- The flow is answered from the first, though the second matches it and has the higher precedence. -/
theorem ifli_hit_outranked :
    ((run outranked {}).1.ifliHit { dstPort := 80 }).map (fun n => (n.rule.id, n.rule.precedence)) = some (6, 1) ∧
    ((run outranked {}).1.classifyFlow { dstPort := 80, destDev := some "eth0" }).ruleId = some 6 ∧
    ∃ m ∈ (run outranked {}).1.store.nodes, m.rule.matchesHashed { dstPort := 80 } = true ∧ 1 < m.rule.precedence := by
  decide +kernel

end Table
end TrafficRules
