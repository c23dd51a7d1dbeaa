import TrafficRules.Document.Mesh
import TrafficRules.RuleSet
/-!
# Rule — documents of rules and rule sets

An entry of a rule set is the record of its rule with one field more, `enabled`.  The other fields are held while that
one is read.
-/
namespace TrafficRules

def Acceleration.toValue (a : Acceleration) : Value := .text a.name

def Acceleration.ofValue? (v : Value) : Option Acceleration :=
  v.named? (Acceleration.all.map (·.name)) Acceleration.ofName?

def Band.toValue (b : Band) : Value := .text b.name

def Band.ofValue? (v : Value) : Option Band := v.named? (Band.all.map (·.name)) Band.ofName?

def Bandwidth.toValue (b : Bandwidth) : Value := .text b.name

def Bandwidth.ofValue? (v : Value) : Option Bandwidth :=
  v.named? (Bandwidth.all.map (·.name)) Bandwidth.ofName?

def MatchMode.toValue (m : MatchMode) : Value := .text m.name

def MatchMode.ofValue? (v : Value) : Option MatchMode :=
  v.named? (MatchMode.all.map (·.name)) MatchMode.ofName?

namespace RuleOutput

def fieldNames : List String :=
  ["priority", "dscp_remark", "vlan_pcp_remark", "service_class_id", "ipv4_frag_thresh", "ae_type"]

def toValue (o : RuleOutput) : Value :=
  .record (("priority", .u8 o.priority) :: (Value.presentField "dscp_remark" .u8 o.dscpRemark
    ++ Value.presentField "vlan_pcp_remark" .u8 o.vlanPcpRemark
    ++ Value.presentField "service_class_id" .u8 o.serviceClassId
    ++ Value.presentField "ipv4_frag_thresh" .u16 o.ipv4FragThresh
    ++ [("ae_type", o.acceleration.toValue)]))

def ofValue? (v : Value) : Option RuleOutput := do
  let fs ← v.fields? fieldNames 1
  let priority ← fs.required "priority" Value.u8?
  let dscpRemark ← fs.optional "dscp_remark" Value.u8?
  let vlanPcpRemark ← fs.optional "vlan_pcp_remark" Value.u8?
  let serviceClassId ← fs.optional "service_class_id" Value.u8?
  let ipv4FragThresh ← fs.optional "ipv4_frag_thresh" Value.u16?
  let acceleration ← fs.withDefault "ae_type" .default Acceleration.ofValue?
  some { priority, dscpRemark, vlanPcpRemark, serviceClassId, ipv4FragThresh, acceleration }

end RuleOutput

namespace Latency

def fieldNames : List String := ["service_interval_dl", "burst_size_dl", "service_interval_ul", "burst_size_ul"]

def toValue (l : Latency) : Value :=
  .record [("service_interval_dl", .u8 l.serviceIntervalDl), ("burst_size_dl", .u32 l.burstSizeDl),
    ("service_interval_ul", .u8 l.serviceIntervalUl), ("burst_size_ul", .u32 l.burstSizeUl)]

def ofValue? (v : Value) : Option Latency := do
  let fs ← v.fields? fieldNames 0
  let serviceIntervalDl ← fs.withDefault "service_interval_dl" 0 Value.u8?
  let burstSizeDl ← fs.withDefault "burst_size_dl" 0 Value.u32?
  let serviceIntervalUl ← fs.withDefault "service_interval_ul" 0 Value.u8?
  let burstSizeUl ← fs.withDefault "burst_size_ul" 0 Value.u32?
  some { serviceIntervalDl, burstSizeDl, serviceIntervalUl, burstSizeUl }

end Latency

namespace MscsParams

def toValue (m : MscsParams) : Value :=
  .record [("tid_bitmap", .u8 m.tidBitmap), ("priority_limit", .u8 m.priorityLimit)]

def ofValue? (v : Value) : Option MscsParams := do
  let fs ← v.fields? ["tid_bitmap", "priority_limit"] 1
  let tidBitmap ← fs.required "tid_bitmap" Value.u8?
  let priorityLimit ← fs.withDefault "priority_limit" 0 Value.u8?
  some { tidBitmap, priorityLimit }

end MscsParams

namespace Radio

def toValue (r : Radio) : Value :=
  .record [("band", r.band.toValue), ("channel", .u8 r.channel), ("bandwidth", r.bandwidth.toValue)]

def ofValue? (v : Value) : Option Radio := do
  let fs ← v.fields? ["band", "channel", "bandwidth"] 3
  let band ← fs.required "band" Band.ofValue?
  let channel ← fs.withDefault "channel" 0 Value.u8?
  let bandwidth ← fs.required "bandwidth" Bandwidth.ofValue?
  some { band, channel, bandwidth }

end Radio

namespace WlanParams

def fieldNames : List String :=
  ["ta_mac", "ra_mac", "radios", "band_mode", "channel_mode", "bandwidth_mode", "bssid", "ssid", "access_class",
   "priority"]

def toValue (p : WlanParams) : Value :=
  .record [("ta_mac", p.taMac.toValue), ("ra_mac", p.raMac.toValue), ("radios", .list (p.radios.map (·.toValue))),
    ("band_mode", p.bandMode.toValue), ("channel_mode", p.channelMode.toValue),
    ("bandwidth_mode", p.bandwidthMode.toValue), ("bssid", p.bssid.toValue), ("ssid", .text p.ssid),
    ("access_class", .u8 p.accessClass), ("priority", .u8 p.priority)]

def ofValue? (v : Value) : Option WlanParams := do
  let fs ← v.fields? fieldNames 0
  let taMac ← fs.withDefault "ta_mac" .zero Mac.ofValue?
  let raMac ← fs.withDefault "ra_mac" .zero Mac.ofValue?
  let radios ← fs.withDefault "radios" [] (Value.list? Radio.ofValue?)
  let bandMode ← fs.withDefault "band_mode" .or MatchMode.ofValue?
  let channelMode ← fs.withDefault "channel_mode" .or MatchMode.ofValue?
  let bandwidthMode ← fs.withDefault "bandwidth_mode" .or MatchMode.ofValue?
  let bssid ← fs.withDefault "bssid" .zero Mac.ofValue?
  let ssid ← fs.withDefault "ssid" "" Value.text?
  let accessClass ← fs.withDefault "access_class" 0 Value.u8?
  let priority ← fs.withDefault "priority" 0 Value.u8?
  some { taMac, raMac, radios, bandMode, channelMode, bandwidthMode, bssid, ssid, accessClass, priority }

end WlanParams

namespace WlanQuery

def toValue (q : WlanQuery) : Value :=
  .record [("params", q.params.toValue), ("dest_mac", q.destMac.toValue), ("dscp", .u8 q.dscp),
    ("pcp", .orNull .u8 q.pcp), ("netdev", .orNull .text q.netdev)]

def ofValue? (v : Value) : Option WlanQuery := do
  let fs ← v.fields? ["params", "dest_mac", "dscp", "pcp", "netdev"] 5
  let params ← fs.required "params" WlanParams.ofValue?
  let destMac ← fs.required "dest_mac" Mac.ofValue?
  let dscp ← fs.required "dscp" Value.u8?
  let pcp ← fs.optional "pcp" Value.u8?
  let netdev ← fs.optional "netdev" Value.text?
  some { params, destMac, dscp, pcp, netdev }

end WlanQuery

namespace Rule

def fieldNames : List String :=
  ["id", "classifier", "precedence", "mesh", "flow", "output", "latency", "mscs", "wlan"]

def toFields (r : Rule) : Fields :=
  [("id", .u32 r.id), ("classifier", r.classifier.toValue), ("precedence", .u8 r.precedence),
   ("mesh", r.mesh.toValue), ("flow", r.flow.toValue), ("output", r.output.toValue)]
    ++ (if r.latency.isZero then [] else [("latency", r.latency.toValue)])
    ++ Value.presentField "mscs" MscsParams.toValue r.mscs ++ Value.presentField "wlan" WlanParams.toValue r.wlan

def toValue (r : Rule) : Value := .record r.toFields

def ofFields? (fs : Fields) : Option Rule := do
  let id ← fs.withDefault "id" noRuleId Value.u32?
  let classifier ← fs.required "classifier" Classifier.ofValue?
  let precedence ← fs.withDefault "precedence" 0 Value.u8?
  let mesh ← fs.withDefault "mesh" {} MeshMatch.ofValue?
  let flow ← fs.withDefault "flow" {} FlowMatch.ofValue?
  let output ← fs.withDefault "output" {} RuleOutput.ofValue?
  let latency ← fs.withDefault "latency" {} Latency.ofValue?
  let mscs ← fs.optional "mscs" MscsParams.ofValue?
  let wlan ← fs.optional "wlan" WlanParams.ofValue?
  some { id, classifier, precedence, mesh, flow, output, latency, mscs, wlan }

def ofValue? (v : Value) : Option Rule := (v.fields? fieldNames 2).bind ofFields?

end Rule

namespace RuleEntry

def toValue (e : RuleEntry) : Value := .record (("enabled", .bool e.enabled) :: e.rule.toFields)

def ofFields? (fs : Fields) : Option RuleEntry := do
  let enabled ← fs.withDefault "enabled" true Value.bool?
  let rule ← Rule.ofFields? (fs.map fun f => (f.1, f.2.held))
  some { enabled, rule }

def ofValue? : Value → Option RuleEntry
  | .record fs => ofFields? fs
  | _ => none

end RuleEntry

namespace RuleSet

def toValue (s : RuleSet) : Value := .record [("rules", .list (s.rules.map (·.toValue)))]

def ofValue? (v : Value) : Option RuleSet := do
  let fs ← v.fields? ["rules"] 0
  let rules ← fs.withDefault "rules" [] (Value.list? RuleEntry.ofValue?)
  some { rules }

end RuleSet
end TrafficRules
