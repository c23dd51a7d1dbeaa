import TrafficRules.Document.Rule
import TrafficRules.Lookup
/-!
# Lookup — documents of requests to classify and of decisions

A request is held while its kind is read, which stands among its fields or before its values.  A decision is a case with
what it carries.  Of the counters of a table the lookups of a family are written only if it had any.
-/
namespace TrafficRules

namespace ClassifyInput

def ofKind? (kind : String) (v : Value) : Option ClassifyInput :=
  if kind = "frame" then (Frame.ofValue? v).map .frame
  else if kind = "latency" then (Frame.ofValue? v).map .latency
  else if kind = "sawf" then (FlowInput.ofValue? v).map .sawf
  else if kind = "scs" then (FlowInput.ofValue? v).map .scs
  else if kind = "mscs" then (FlowInput.ofValue? v).map .mscs
  else none

def isKind : Value → Bool
  | .text s => s = "kind"
  | _ => false

def ofEntries? (es : List (Value × Value)) : Option ClassifyInput :=
  match es.filter (isKind ·.1) with
  | [(_, kind)] => kind.text?.bind fun kind => ofKind? kind (.mapping (es.filter (!isKind ·.1)))
  | _ => none

/-- The kind of a request stands among its fields, or before its values.  The others are held while it is read. -/
def ofValue? (v : Value) : Option ClassifyInput :=
  match v.held with
  | .mapping es => ofEntries? es
  | .list (kind :: rest) => kind.text?.bind fun kind => ofKind? kind (.list rest)
  | _ => none

def toValue : ClassifyInput → Value
  | .frame f => .record (("kind", .text "frame") :: f.toFields)
  | .latency f => .record (("kind", .text "latency") :: f.toFields)
  | .sawf i => .record (("kind", .text "sawf") :: i.toFields)
  | .scs i => .record (("kind", .text "scs") :: i.toFields)
  | .mscs i => .record (("kind", .text "mscs") :: i.toFields)

end ClassifyInput

namespace FlowDecision

def fieldNames : List String :=
  ["priority", "dscp_remark", "vlan_pcp_remark", "service_class_id", "ipv4_frag_thresh", "rule_id", "ae_type",
   "rule_type", "key"]

def toValue (d : FlowDecision) : Value :=
  .record [("priority", .u8 d.priority), ("dscp_remark", .orNull .u8 d.dscpRemark),
    ("vlan_pcp_remark", .orNull .u8 d.vlanPcpRemark), ("service_class_id", .orNull .u8 d.serviceClassId),
    ("ipv4_frag_thresh", .orNull .u16 d.ipv4FragThresh), ("rule_id", .orNull .u32 d.ruleId),
    ("ae_type", d.acceleration.toValue), ("rule_type", .orNull Classifier.toValue d.ruleType),
    ("key", .orNull .u32 d.key)]

def ofValue? (v : Value) : Option FlowDecision := do
  let fs ← v.fields? fieldNames 9
  let priority ← fs.required "priority" Value.u8?
  let dscpRemark ← fs.optional "dscp_remark" Value.u8?
  let vlanPcpRemark ← fs.optional "vlan_pcp_remark" Value.u8?
  let serviceClassId ← fs.optional "service_class_id" Value.u8?
  let ipv4FragThresh ← fs.optional "ipv4_frag_thresh" Value.u16?
  let ruleId ← fs.optional "rule_id" Value.u32?
  let acceleration ← fs.required "ae_type" Acceleration.ofValue?
  let ruleType ← fs.optional "rule_type" Classifier.ofValue?
  let key ← fs.optional "key" Value.u32?
  some { priority, dscpRemark, vlanPcpRemark, serviceClassId, ipv4FragThresh, ruleId, acceleration, ruleType, key }

end FlowDecision

namespace PriorityDecision

def toValue (d : PriorityDecision) : Value :=
  .record [("priority", .orNull .u8 d.priority), ("rule_id", .orNull .u32 d.ruleId)]

def ofValue? (v : Value) : Option PriorityDecision := do
  let fs ← v.fields? ["priority", "rule_id"] 2
  let priority ← fs.optional "priority" Value.u8?
  let ruleId ← fs.optional "rule_id" Value.u32?
  some { priority, ruleId }

end PriorityDecision

namespace Decision

def toValue : Decision → Value
  | .pcp v => .record [("pcp", .u8 v)]
  | .latency v => .record [("latency", v.toValue)]
  | .sawf v => .record [("sawf", v.toValue)]
  | .priority v => .record [("priority", v.toValue)]

def ofCase? (name : String) (v : Value) : Option Decision :=
  if name = "pcp" then v.u8?.map .pcp
  else if name = "latency" then (Latency.ofValue? v).map .latency
  else if name = "sawf" then (FlowDecision.ofValue? v).map .sawf
  else if name = "priority" then (PriorityDecision.ofValue? v).map .priority
  else none

def ofValue? (v : Value) : Option Decision := do
  let c ← v.choice? ["pcp", "latency", "sawf", "priority"]
  ofCase? c.name (← c.content)

end Decision

namespace MatchStats

def toValue (s : MatchStats) : Value := .record [("lookups", .u64 s.lookups), ("matches", .u64 s.hits)]

def ofValue? (v : Value) : Option MatchStats := do
  let fs ← v.fields? ["lookups", "matches"] 2
  let lookups ← fs.required "lookups" Value.u64?
  let hits ← fs.required "matches" Value.u64?
  some { lookups, hits }

end MatchStats

def Counters.toValue (c : Counters) : Value :=
  .record [("rules_added", .u64 c.added), ("rules_modified", .u64 c.modified), ("rules_deleted", .u64 c.deleted),
    ("flushes", .u64 c.flushes), ("writer_rejections", .u64 c.rejections),
    ("families", .list (c.usedFamilies.map fun p => .list [p.1.toValue, p.2.toValue]))]

end TrafficRules
