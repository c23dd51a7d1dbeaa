import TrafficRules.Action
import TrafficRules.Flow.Match
import TrafficRules.Mesh.Match
import TrafficRules.Wlan.Plugins
/-!
# Rule — what to match and what to answer

A rule belongs to a family, carries a caller's id and a precedence, and holds match criteria for frames and for flows
of which its family uses one.  A rule that its caller gave no id has `noRuleId`.  Precedences run below
`Rule.precedenceCount`, and the one at it counts as zero: a rule is stored normalized.  It is stored under a key, the hash
of its tuple if it is flow-keyed, else its id.

`Rule.fault?` is the check every rule passes before it is stored.  It names the first fault of the output, of the VLAN
remark, of the flow match and of the wireless parameters, in this order.  `Rule.render` writes a rule in one line: id,
family, precedence, the match its family uses, and the output with its remarks.
-/
namespace TrafficRules

structure RuleOutput where
  priority : UInt8 := Action.useDscpCode
  dscpRemark : Option UInt8 := none
  vlanPcpRemark : Option UInt8 := none
  serviceClassId : Option UInt8 := none
  ipv4FragThresh : Option UInt16 := none
  acceleration : Acceleration := .default
  deriving DecidableEq, Inhabited, Repr

def RuleOutput.action? (o : RuleOutput) : Option Action := Action.ofCode? o.priority

structure Latency where
  serviceIntervalDl : UInt8 := 0
  burstSizeDl : UInt32 := 0
  serviceIntervalUl : UInt8 := 0
  burstSizeUl : UInt32 := 0
  deriving DecidableEq, Inhabited, Repr

def Latency.isZero (l : Latency) : Bool := l == {}

structure MscsParams where
  tidBitmap : UInt8
  priorityLimit : UInt8 := 0
  deriving DecidableEq, Repr

def checkedShiftLeft (w n : UInt32) : Option UInt32 := if n < 32 then some (w <<< n) else none

/-- The bitmap admits a traffic identifier. -/
def MscsParams.admits (m : MscsParams) (tid : UInt8) : Bool :=
  m.tidBitmap != 0 && (checkedShiftLeft 1 tid.toUInt32).any fun bit => bit &&& m.tidBitmap.toUInt32 != 0

def noRuleId : UInt32 := 0xffffffff

structure Rule where
  id : UInt32 := noRuleId
  classifier : Classifier
  precedence : UInt8 := 0
  mesh : MeshMatch := {}
  flow : FlowMatch := {}
  output : RuleOutput := {}
  latency : Latency := {}
  mscs : Option MscsParams := none
  wlan : Option WlanParams := none
  deriving DecidableEq, Repr

inductive RuleFault where
  | output (code : UInt8)
  | vlanPcpRemark (value : UInt8)
  | flow (fault : FlowFault)
  | wlan (fault : WlanFault)
  deriving DecidableEq, Repr

def RuleFault.message : RuleFault → String
  | .output n => s!"output {n} is not a valid action"
  | .vlanPcpRemark n => s!"vlan_pcp_remark {n} is out of range"
  | .flow f => f.message
  | .wlan f => (PluginError.invalidMetadata f).message

namespace Rule

abbrev precedenceCount : Nat := 255

/-- The precedence a rule is stored at. -/
def bucket (r : Rule) : Fin precedenceCount :=
  if h : r.precedence.toNat < precedenceCount then ⟨r.precedence.toNat, h⟩ else 0

def normalized (r : Rule) : Rule := { r with precedence := UInt8.ofNat r.bucket.val }

def flowTuple? (r : Rule) : Option FlowTuple := if r.classifier.isFlowKeyed then some r.flow.tuple else none

def key (r : Rule) : UInt32 := (r.flowTuple?.map (·.hash)).getD r.id

/-- Matched by a wireless plugin. -/
def isWlan (r : Rule) : Bool := r.classifier == .sawf && r.wlan.isSome

/-- The first fault of a rule: its output, its VLAN remark, its flow match, its wireless parameters. -/
def fault? (r : Rule) : Option RuleFault :=
  if Action.noMatchCode ≤ r.output.priority then some (.output r.output.priority)
  else if let some n := r.output.vlanPcpRemark.filter (7 < ·) then some (.vlanPcpRemark n)
  else if let some f := r.flow.fault? then some (.flow f)
  else (r.wlan.bind (·.fault?)).map .wlan

def renderRemarks (r : Rule) : String :=
  String.join <| [r.output.dscpRemark.map fun n => s!" dscp {n}",
   r.output.vlanPcpRemark.map fun n => s!" pcp {n}",
   r.output.serviceClassId.map fun n => s!" scid {n}",
   r.output.ipv4FragThresh.map fun n => s!" frag {n}",
   if r.output.acceleration = .default then none else some (" ae " ++ r.output.acceleration.name),
   r.mscs.map fun m => " tids 0x" ++ String.ofList (Digits.octet m.tidBitmap),
   r.wlan.map fun w => " wlan ssid '" ++ w.ssid ++ "'"].filterMap fun part => part

/-- One line for a rule: id, family, precedence, the match its family uses and the output. -/
def render (r : Rule) : String :=
  let id := if r.id = noRuleId then "-" else toString r.id
  let criteria := if r.classifier = .mesh then r.mesh.render else r.flow.render
  "rule " ++ id ++ " [" ++ r.classifier.name ++ "] prec " ++ toString r.precedence
    ++ " match \x7b" ++ criteria ++ "\x7d -> out " ++ toString r.output.priority ++ r.renderRemarks

end Rule
end TrafficRules
