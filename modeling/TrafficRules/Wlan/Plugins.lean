import TrafficRules.Wlan.Params
/-!
# Plugins — the two callbacks a wireless plugin may register

One callback accepts or refuses the wireless parameters of a rule when it is added, the other decides at lookup whether
such a rule matches a flow.  Each has one slot, which must be free to be taken.  Without a validator a rule cannot be
judged; without a query callback there is no verdict on a flow, which callers take for a mismatch.
-/
namespace TrafficRules

inductive Callback where
  | validate
  | query
  deriving DecidableEq, Repr

def Callback.name : Callback → String
  | .validate => "validate"
  | .query => "query"

inductive PluginError where
  | alreadyRegistered (callback : Callback)
  | notRegistered (callback : Callback)
  | invalidMetadata (fault : WlanFault)
  deriving DecidableEq, Repr

def PluginError.message : PluginError → String
  | .alreadyRegistered c => "A " ++ c.name ++ " callback is already registered"
  | .notRegistered c => "No " ++ c.name ++ " callback registered"
  | .invalidMetadata f => "Invalid plugin metadata: " ++ f.message

abbrev Verdict := WlanQuery → Bool

structure Plugins where
  validator : Option Verdict := none
  query : Option Verdict := none

namespace Plugins

def slot (p : Plugins) : Callback → Option Verdict
  | .validate => p.validator
  | .query => p.query

def fill (p : Plugins) (v : Option Verdict) : Callback → Plugins
  | .validate => { p with validator := v }
  | .query => { p with query := v }

def register (p : Plugins) (c : Callback) (v : Verdict) : Except PluginError Plugins :=
  match p.slot c with
  | some _ => .error (.alreadyRegistered c)
  | none => .ok (p.fill (some v) c)

def unregister (p : Plugins) (c : Callback) : Plugins := p.fill none c

def validate (p : Plugins) (q : WlanQuery) : Except PluginError Bool :=
  match p.validator with
  | none => .error (.notRegistered .validate)
  | some v => .ok (v q)

def ask? (p : Plugins) (q : WlanQuery) : Option Bool := p.query.map (· q)

end Plugins

/-- A verdict put together from wished-for values: each one given has to be the query's. -/
structure WlanPolicy where
  ssid : Option String := none
  netdev : Option String := none
  pcp : Option UInt8 := none
  dscp : Option UInt8 := none
  accessClass : Option UInt8 := none
  radio : Option Band := none
  negate : Bool := false
  deriving DecidableEq, Repr

/-- The verdict of a policy: agreement on every given value, or its opposite. -/
def WlanPolicy.verdict (p : WlanPolicy) : Verdict := fun q =>
  (p.ssid.all (· == q.params.ssid) && p.netdev.all (some · == q.netdev) && p.pcp.all (some · == q.pcp)
    && p.dscp.all (· == q.dscp) && p.accessClass.all (· == q.params.accessClass)
    && p.radio.all fun b => (q.radio? b).isSome) != p.negate

end TrafficRules
