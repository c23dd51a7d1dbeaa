import TrafficRules.Proofs.Lookup.Admission
import TrafficRules.Proofs.Lookup.Streams
/-!
# Sentinels — absent values on the wire

What a decision leaves absent is sent as the octet `0xff`.  The values are those of the rule that answers, and the check
every stored rule has passed bounds its VLAN remark alone.  So the other two octets say what is absent just as long as the
rule that answers does not name `0xff` itself (`flow_sentinels_clear_iff`), which takes the addition of a rule that does
(`run_unclear_origin`).
-/
namespace TrafficRules

/-- Each octet sent tells an absent value from one that is there. -/
structure FlowDecision.Clear (d : FlowDecision) : Prop where
  dscpRemark : d.wireDscpRemark = 0xff ↔ d.dscpRemark = none
  vlanPcpRemark : d.wireVlanPcpRemark = 0xff ↔ d.vlanPcpRemark = none
  serviceClassId : d.wireServiceClassId = 0xff ↔ d.serviceClassId = none

/-- It has a value that is sent as absent. -/
def RuleOutput.NamesAbsent (o : RuleOutput) : Prop := o.dscpRemark = some 0xff ∨ o.serviceClassId = some 0xff

instance (o : RuleOutput) : Decidable o.NamesAbsent := inferInstanceAs (Decidable (_ ∨ _))

theorem Rule.vlanPcpRemark_ne_of_faultless {r : Rule} (h : r.fault? = none) : r.output.vlanPcpRemark ≠ some 0xff := by
  intro hremark
  exact absurd ((fault?_eq_none_iff.1 h).2.1 0xff hremark) (by decide)

/-! ## The three passes -/

theorem Node.flowDecision_dscpRemark (n : Node) : n.flowDecision.dscpRemark = n.rule.output.dscpRemark := by
  unfold flowDecision
  cases n.rule.classifier <;> rfl

theorem Node.flowDecision_serviceClassId (n : Node) :
    n.flowDecision.serviceClassId = n.rule.output.serviceClassId := by
  unfold flowDecision
  cases n.rule.classifier <;> rfl

theorem Node.flowDecision_vlanPcpRemark (n : Node) : n.flowDecision.vlanPcpRemark =
    if n.rule.classifier.isFlowKeyed then none else n.rule.output.vlanPcpRemark := by
  unfold flowDecision
  cases n.rule.classifier <;> rfl

theorem Node.flowDecision_ruleId (n : Node) : n.flowDecision.ruleId = some n.rule.id := by
  unfold flowDecision
  cases n.rule.classifier <;> rfl

namespace Table

variable {t : Table}

theorem mem_of_selects (h : Valid t) {i : ClassifyInput} {n : Node} (hn : t.selects i = some n) : n ∈ t.store.nodes := by
  rw [selects_eq_head h] at hn
  exact ((of_turns h i).1 n (List.mem_of_head? hn)).1

theorem octet_clear_iff (t : Table) (i : FlowInput) (value : FlowDecision → Option UInt8) (hmiss : value {} = none) :
    ((value (t.classifyFlow i)).getD absentOctet = absentOctet ↔ value (t.classifyFlow i) = none) ↔
      ∀ n ∈ t.selects (.sawf i), value n.flowDecision ≠ some absentOctet := by
  rw [getD_absent_iff, classifyFlow_eq_selects]
  cases t.selects (.sawf i) with
  | none => simp [hmiss]
  | some n => simp

theorem dscpRemark_clear_iff (t : Table) (i : FlowInput) :
    ((t.classifyFlow i).wireDscpRemark = 0xff ↔ (t.classifyFlow i).dscpRemark = none) ↔
      ∀ n ∈ t.selects (.sawf i), n.rule.output.dscpRemark ≠ some 0xff := by
  simp only [← Node.flowDecision_dscpRemark]
  exact t.octet_clear_iff i (·.dscpRemark) rfl

theorem serviceClassId_clear_iff (t : Table) (i : FlowInput) :
    ((t.classifyFlow i).wireServiceClassId = 0xff ↔ (t.classifyFlow i).serviceClassId = none) ↔
      ∀ n ∈ t.selects (.sawf i), n.rule.output.serviceClassId ≠ some 0xff := by
  simp only [← Node.flowDecision_serviceClassId]
  exact t.octet_clear_iff i (·.serviceClassId) rfl

theorem vlanPcpRemark_clear (h : Reachable t) (i : FlowInput) :
    (t.classifyFlow i).wireVlanPcpRemark = 0xff ↔ (t.classifyFlow i).vlanPcpRemark = none := by
  refine (t.octet_clear_iff i (·.vlanPcpRemark) rfl).2 fun n hn => ?_
  rw [Node.flowDecision_vlanPcpRemark]
  split
  · exact (Option.some_ne_none _).symm
  · exact Rule.vlanPcpRemark_ne_of_faultless (h.faultless n (mem_of_selects h.valid hn))

theorem classifyFlow_clear_iff (h : Reachable t) (i : FlowInput) :
    (t.classifyFlow i).Clear ↔ ∀ n ∈ t.selects (.sawf i), ¬ n.rule.output.NamesAbsent := by
  constructor
  · intro hd n hn
    exact not_or.2 ⟨(t.dscpRemark_clear_iff i).1 hd.dscpRemark n hn, (t.serviceClassId_clear_iff i).1 hd.serviceClassId n hn⟩
  · intro hnone
    exact ⟨(t.dscpRemark_clear_iff i).2 fun n hn => mt Or.inl (hnone n hn), vlanPcpRemark_clear h i,
      (t.serviceClassId_clear_iff i).2 fun n hn => mt Or.inr (hnone n hn)⟩

/-- **An unclear decision goes back to an addition** that named the octet and was accepted. -/
theorem run_unclear_origin (config : TableConfig) (plugins : Plugins) (cs : List Call) (i : FlowInput) :
    let t := (run cs { config, plugins }).1
    ¬ (t.classifyFlow i).Clear → ∃ pre r post, cs = pre ++ .add r :: post ∧ r.output.NamesAbsent ∧
      (t.classifyFlow i).ruleId = some r.id ∧ ∃ o, ((run pre { config, plugins }).1.add r).result = .ok o := by
  intro t hd
  have hfresh : Reachable { config, plugins } := .fresh config plugins
  have h : Reachable t := run_reachable cs hfresh
  obtain ⟨n, hn, hnames⟩ : ∃ n ∈ t.selects (.sawf i), n.rule.output.NamesAbsent := by
    by_contra hnone
    exact hd ((classifyFlow_clear_iff h i).2 fun n hn hnames => hnone ⟨n, hn, hnames⟩)
  rcases run_origin cs hfresh (mem_of_selects h.valid hn) with hstays | ⟨pre, r, post, hcs, rfl, ho, -⟩
  · have hstart := hstays [] List.nil_prefix
    rw [run, Store.nodes_empty] at hstart
    cases hstart
  · refine ⟨pre, r, post, hcs, hnames, ?_, ho⟩
    rw [classifyFlow_of_selects hn, Node.flowDecision_ruleId]
    rfl

/-- **What is sent for a flow says what is absent** just when the rule that answers names `0xff` for neither value that its
check lets through: the DSCP remark or the service class. -/
theorem flow_sentinels_clear_iff (h : Reachable t) (i : FlowInput) :
    let d := t.classifyFlow i
    (∀ n ∈ t.selects (.sawf i), n.rule ∈ t.rules ∧ d = n.flowDecision) ∧
    (d.wireVlanPcpRemark = 0xff ↔ d.vlanPcpRemark = none) ∧
    ((d.wireDscpRemark = 0xff ↔ d.dscpRemark = none) ↔
      ∀ n ∈ t.selects (.sawf i), n.rule.output.dscpRemark ≠ some 0xff) ∧
    ((d.wireServiceClassId = 0xff ↔ d.serviceClassId = none) ↔
      ∀ n ∈ t.selects (.sawf i), n.rule.output.serviceClassId ≠ some 0xff) ∧
    (d.Clear ↔ ∀ n ∈ t.selects (.sawf i), ¬ n.rule.output.NamesAbsent) := by
  intro d
  exact ⟨fun n hn => ⟨List.mem_map_of_mem (mem_of_selects h.valid hn), classifyFlow_of_selects hn⟩,
    vlanPcpRemark_clear h i, t.dscpRemark_clear_iff i, t.serviceClassId_clear_iff i, classifyFlow_clear_iff h i⟩

/-- A service-aware rule that names `0xff` for both, and rules of the other passes that do not. -/
def remarking : List Call :=
  [.add { id := 7, classifier := .sawf, flow := { dstPort := some 80 }
          output := { priority := 5, dscpRemark := some 255, serviceClassId := some 255 } },
   .add { id := 8, classifier := .scs, flow := { dstPort := some 443 }
          output := { dscpRemark := some 254, vlanPcpRemark := some 7 } },
   .add { id := 9, classifier := .ifli, flow := { dstPort := some 22 }
          output := { vlanPcpRemark := some 7, serviceClassId := some 3 } }]

def remarks : Table := (run remarking {}).1

def toPort (port : UInt16) : FlowInput := { dstPort := port, destDev := some "eth0" }

/-- A value that is there is sent as absent; of the VLAN remark the check would not have let it. -/
theorem absent_octet_named :
    Reachable remarks ∧ (remarks.classifyFlow (toPort 80)).dscpRemark = some 0xff ∧
    (remarks.classifyFlow (toPort 80)).wireDscpRemark = 0xff ∧
    (remarks.classifyFlow (toPort 80)).serviceClassId = some 0xff ∧
    (remarks.classifyFlow (toPort 80)).wireServiceClassId = 0xff ∧
    Rule.fault? { classifier := .sawf, output := { vlanPcpRemark := some 0xff } } = some (.vlanPcpRemark 0xff) ∧
    ¬ ∀ t, Reachable t → ∀ i, (t.classifyFlow i).Clear := by
  have h : Reachable remarks := run_reachable _ (.fresh {} {})
  have hremark : (remarks.classifyFlow (toPort 80)).dscpRemark = some 0xff := by decide +kernel
  have hwire : (remarks.classifyFlow (toPort 80)).wireDscpRemark = 0xff := by decide +kernel
  refine ⟨h, hremark, hwire, by decide +kernel, by decide +kernel, by decide, fun hall => ?_⟩
  have hnone := (hall remarks h (toPort 80)).dscpRemark.1 hwire
  rw [hremark] at hnone
  cases hnone

theorem flow_sentinels_clear_iff_remarks :
    ¬ (remarks.classifyFlow (toPort 80)).Clear ∧ (remarks.classifyFlow (toPort 80)).wireVlanPcpRemark = 0xff ∧
    (remarks.classifyFlow (toPort 443)).Clear ∧ (remarks.classifyFlow (toPort 443)).wireDscpRemark = 254 ∧
    (remarks.classifyFlow (toPort 22)).Clear ∧ (remarks.classifyFlow (toPort 22)).ruleId = some 9 ∧
    (remarks.classifyFlow (toPort 22)).vlanPcpRemark = none ∧ (remarks.classifyFlow (toPort 1)).Clear := by
  have h : Reachable remarks := run_reachable _ (.fresh {} {})
  obtain ⟨-, hvlan, -, -, h80⟩ := flow_sentinels_clear_iff h (toPort 80)
  obtain ⟨-, -, -, -, h443⟩ := flow_sentinels_clear_iff h (toPort 443)
  obtain ⟨-, -, -, -, h22⟩ := flow_sentinels_clear_iff h (toPort 22)
  obtain ⟨-, -, -, -, hmiss⟩ := flow_sentinels_clear_iff h (toPort 1)
  exact ⟨mt h80.1 (by decide +kernel), hvlan.2 (by decide +kernel), h443.2 (by decide +kernel), by decide +kernel,
    h22.2 (by decide +kernel), by decide +kernel, by decide +kernel, hmiss.2 (by decide +kernel)⟩

end Table
end TrafficRules
