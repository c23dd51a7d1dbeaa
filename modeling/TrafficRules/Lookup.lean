import TrafficRules.Table
/-!
# Lookup — classifying frames and flows

Each lookup selects a stored rule and reads its answer off.  Frames consult the mesh rules; a flow consults the
service-aware rules, then stream classification of either family, each rule matched as its own, then the flow-keyed rules
under the hash of its tuple, and the first pass with a hit decides.  A flow is looked up only if it leaves by a device and
there are rules.  Requests for stream classification are answered by a priority; a flow that a rule admits keeps its own.
What is absent from an answer is `absentOctet` on the wire.

Only what was asked, never what was stored, is changed by a lookup: its counters (`Table.counting`).  The callback that
decides about wireless rules is consulted for each of them that is met before the hit and for the hit (`searched`), and
the calls are part of what a lookup does (`Table.queryCalls`).
-/
namespace TrafficRules

/-- The answer to a flow. -/
structure FlowDecision where
  priority : UInt8 := Action.useDscpCode
  dscpRemark : Option UInt8 := none
  vlanPcpRemark : Option UInt8 := none
  serviceClassId : Option UInt8 := none
  ipv4FragThresh : Option UInt16 := none
  ruleId : Option UInt32 := none
  acceleration : Acceleration := .default
  ruleType : Option Classifier := none
  key : Option UInt32 := none
  deriving DecidableEq, Inhabited, Repr

structure PriorityDecision where
  priority : Option UInt8 := none
  ruleId : Option UInt32 := none
  deriving DecidableEq, Inhabited, Repr

def absentOctet : UInt8 := 0xff

namespace FlowDecision

def isMatch (d : FlowDecision) : Bool := d.ruleType.isSome

def wireRuleId (d : FlowDecision) : UInt32 := d.ruleId.getD noRuleId

def wireDscpRemark (d : FlowDecision) : UInt8 := d.dscpRemark.getD absentOctet

def wireVlanPcpRemark (d : FlowDecision) : UInt8 := d.vlanPcpRemark.getD absentOctet

def wireServiceClassId (d : FlowDecision) : UInt8 := d.serviceClassId.getD absentOctet

end FlowDecision

namespace PriorityDecision

def wirePriority (d : PriorityDecision) : UInt8 := d.priority.getD absentOctet

def wireRuleId (d : PriorityDecision) : UInt32 := d.ruleId.getD noRuleId

def ofHit : Option (UInt8 × UInt32) → PriorityDecision
  | none => {}
  | some (priority, id) => ⟨some priority, some id⟩

end PriorityDecision

inductive ClassifyInput where
  | frame (frame : Frame)
  | latency (frame : Frame)
  | sawf (flow : FlowInput)
  | scs (flow : FlowInput)
  | mscs (flow : FlowInput)
  deriving DecidableEq, Repr

inductive Decision where
  | pcp (value : UInt8)
  | latency (value : Latency)
  | sawf (value : FlowDecision)
  | priority (value : PriorityDecision)
  deriving DecidableEq, Repr

namespace Table

def meshHit (t : Table) (f : Frame) : Option Node := (t.store.family .mesh).find? (·.rule.mesh.accepts f)

/-- The priority of a frame.  Without a rule to match it gets the default priority, and from an empty table the one
in its DS field. -/
def classifyFrame (t : Table) (f : Frame) : UInt8 :=
  let action :=
    match t.meshHit f with
    | some n => n.rule.output.action?
    | none => if t.store.isEmpty then some .useDscp else none
  match action with
  | some (.pcp v) => v
  | some .useUp => f.priority
  | some .useDscp => f.network.dscpPcp.getD t.config.defaultPcp
  | none => t.config.defaultPcp

def latencyOf (t : Table) (f : Frame) : Latency := ((t.meshHit f).map (·.rule.latency)).getD {}

def wlanFlowQuestion (w : WlanParams) (i : FlowInput) : WlanQuery := ⟨w, i.dstMac, i.dscp, i.vlanPcp, i.destDev⟩

/-- A rule with wireless parameters matches when the query callback says so, whatever its flow match; without a
callback it matches nothing. -/
def sawfAccepts (p : Plugins) (i : FlowInput) (n : Node) : Bool :=
  match n.rule.wlan with
  | some w => (p.ask? (wlanFlowQuestion w i)).getD false
  | none => n.rule.flow.accepts i .sawf

def sawfHit (t : Table) (i : FlowInput) : Option Node := (t.store.family .sawf).find? (sawfAccepts t.plugins i)

def streamHit (t : Table) (i : FlowInput) : Option Node :=
  (t.store.nodes.filter (·.rule.classifier.isScsLike)).find? fun n => n.rule.flow.accepts i n.rule.classifier

def ifliHit (t : Table) (i : FlowInput) : Option Node :=
  (t.store.flowChain i.tuple.hash).find? (·.rule.flow.accepts i .ifli)

def sawfDecision (n : Node) : FlowDecision where
  priority := n.rule.output.priority
  dscpRemark := n.rule.output.dscpRemark
  vlanPcpRemark := n.rule.output.vlanPcpRemark
  serviceClassId := n.rule.output.serviceClassId
  ipv4FragThresh := n.rule.output.ipv4FragThresh
  ruleId := some n.rule.id
  acceleration := n.rule.output.acceleration
  ruleType := some .sawf

def streamDecision (n : Node) : FlowDecision where
  priority := n.rule.output.priority
  dscpRemark := n.rule.output.dscpRemark
  vlanPcpRemark := n.rule.output.vlanPcpRemark
  serviceClassId := n.rule.output.serviceClassId
  ruleId := some n.rule.id
  ruleType := some .sawfScs

def ifliDecision (n : Node) : FlowDecision where
  priority := n.rule.output.priority
  dscpRemark := n.rule.output.dscpRemark
  serviceClassId := n.rule.output.serviceClassId
  ruleId := some n.rule.id
  acceleration := n.rule.output.acceleration
  ruleType := some .ifli
  key := some n.key

def consults (t : Table) (i : FlowInput) : Bool := i.destDev.isSome && !t.store.isEmpty

def flowDecision? (t : Table) (i : FlowInput) : Option FlowDecision :=
  ((t.sawfHit i).map sawfDecision).or (((t.streamHit i).map streamDecision).or ((t.ifliHit i).map ifliDecision))

def classifyFlow (t : Table) (i : FlowInput) : FlowDecision :=
  if t.consults i then (t.flowDecision? i).getD {} else {}

def scsHit (t : Table) (i : FlowInput) : Option Node := (t.store.family .scs).find? (·.rule.flow.accepts i .scs)

def classifyScs (t : Table) (i : FlowInput) : PriorityDecision :=
  .ofHit ((t.scsHit i).map fun n => (n.rule.output.priority, n.rule.id))

def mscsHit (t : Table) (i : FlowInput) : Option Node :=
  (t.store.family .mscs).find? fun n => n.rule.flow.accepts i .mscs && n.rule.mscs.any (·.admits i.priority)

def classifyMscs (t : Table) (i : FlowInput) : PriorityDecision :=
  .ofHit ((t.mscsHit i).map fun n => (i.priority, n.rule.id))

def decide (t : Table) : ClassifyInput → Decision
  | .frame f => .pcp (t.classifyFrame f)
  | .latency f => .latency (t.latencyOf f)
  | .sawf i => .sawf (t.classifyFlow i)
  | .scs i => .priority (t.classifyScs i)
  | .mscs i => .priority (t.classifyMscs i)

/-- What a lookup counts: one lookup for the family that decided, the service-aware one when none did.  Latency
requests and flows not looked up count nothing. -/
def lookupTally? (t : Table) : ClassifyInput → Option Tally
  | .frame f => some (.lookup .mesh (t.meshHit f).isSome)
  | .latency _ => none
  | .sawf i =>
    if t.consults i then some (.lookup ((t.classifyFlow i).ruleType.getD .sawf) (t.classifyFlow i).isMatch) else none
  | .scs i => some (.lookup .scs (t.classifyScs i).priority.isSome)
  | .mscs i => some (.lookup .mscs (t.classifyMscs i).priority.isSome)

def queryCall? (p : Plugins) (i : FlowInput) (n : Node) : Option Consultation :=
  n.rule.wlan.bind fun w =>
    let q := wlanFlowQuestion w i
    (p.ask? q).map fun answer => ⟨.query, q, answer⟩

def searched (p : Node → Bool) (ns : List Node) : List Node :=
  ns.takeWhile (!p ·) ++ (ns.find? p).toList

/-- The calls of the query callback on the way to an answer. -/
def queryCalls (t : Table) : ClassifyInput → List Consultation
  | .sawf i =>
    if t.consults i then
      (searched (sawfAccepts t.plugins i) (t.store.family .sawf)).filterMap (queryCall? t.plugins i)
    else []
  | _ => []

def counting (t : Table) (i : ClassifyInput) : Table :=
  match t.lookupTally? i with
  | none => t
  | some x => t.tally x

end Table
end TrafficRules
