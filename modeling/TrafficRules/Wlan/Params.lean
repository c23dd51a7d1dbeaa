import TrafficRules.Address.Mac
import TrafficRules.Wlan.Radio
/-!
# Params — wireless parameters of a rule, and what a plugin is shown of them

A plugin callback sees the parameters of the rule and, when it decides on a flow, the flow's destination, code points
and device (`WlanQuery`).  Its flags are one when the flow carries a tag, else zero, and of the radios of a band it sees
the first.  `WlanParams.fault?` is the limit check made on every rule; the length of a network name is counted in bytes.
-/
namespace TrafficRules

structure WlanParams where
  taMac : Mac := .zero
  raMac : Mac := .zero
  radios : List Radio := []
  bandMode : MatchMode := .or
  channelMode : MatchMode := .or
  bandwidthMode : MatchMode := .or
  bssid : Mac := .zero
  ssid : String := ""
  accessClass : UInt8 := 0
  priority : UInt8 := 0
  deriving DecidableEq, Repr

inductive WlanFault where
  | ssidTooLong (bytes : Nat)
  | tooManyRadios (count : Nat)
  deriving DecidableEq, Repr

namespace WlanParams

def ssidLimit : Nat := 32

def radioLimit : Nat := 7

def fault? (p : WlanParams) : Option WlanFault :=
  if ssidLimit < p.ssid.utf8ByteSize then some (.ssidTooLong p.ssid.utf8ByteSize)
  else if radioLimit < p.radios.length then some (.tooManyRadios p.radios.length)
  else none

end WlanParams

def WlanFault.message : WlanFault → String
  | .ssidTooLong n => s!"SSID is {n} bytes, limit is {WlanParams.ssidLimit}"
  | .tooManyRadios n => s!"{n} radios configured, limit is {WlanParams.radioLimit}"

structure WlanQuery where
  params : WlanParams
  destMac : Mac
  dscp : UInt8
  pcp : Option UInt8
  netdev : Option String
  deriving DecidableEq, Repr

namespace WlanQuery

/-- The question about a rule, no flow at hand. -/
def ofRule (p : WlanParams) : WlanQuery := ⟨p, .zero, 0, none, none⟩

def validFlags (q : WlanQuery) : UInt8 := if q.pcp.isSome then 1 else 0

def radio? (q : WlanQuery) (b : Band) : Option Radio := q.params.radios.find? (·.band == b)

end WlanQuery
end TrafficRules
