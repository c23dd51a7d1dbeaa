import TrafficRules.Lookup
import TrafficRules.RuleSet
/-!
# Command — what a caller or an observer may ask of the engine, and the replies

A command changes rules, looks something up, shows the state, or changes who is told and who is asked.  An observer
carries the commands it performs when it is told of a change.  A request comes from a management interface: it names one
rule and holds its command as a raw code, which may be none.  The present store can be kept under a name (`hold`) and shown
later (`held`).
-/
namespace TrafficRules

inductive AdminCommand where
  | delete
  | add
  | query
  deriving DecidableEq, Repr

namespace AdminCommand

def all : List AdminCommand := [.delete, .add, .query]

def code : AdminCommand → UInt8
  | .delete => 0
  | .add => 1
  | .query => 2

def name : AdminCommand → String
  | .delete => "delete"
  | .add => "add"
  | .query => "query"

def ofCode? (n : UInt8) : Option AdminCommand := all.find? (·.code == n)

end AdminCommand

/-- A request about one rule, the command as a raw code. -/
structure RuleRequest where
  command : UInt8
  rule : Rule
  deriving DecidableEq, Repr

/-- How a rule is named to query or delete it: by its tuple if it is flow-keyed and has no id, else by its id. -/
def Rule.selector (r : Rule) : Selector :=
  if r.classifier.isFlowKeyed && r.id == noRuleId then .flow r.flow.tuple else .id r.id

inductive CommandFault where
  | undecodable
  | unknown
  deriving DecidableEq, Repr

inductive Command where
  | add (rule : Rule)
  | update (request : RuleRequest)
  | delete (selector : Selector) (classifier : Classifier)
  | query (selector : Selector) (classifier : Classifier)
  | queryByType (classifier : Classifier)
  | flush (classifier : Option Classifier)
  | apply (set : RuleSet)
  | classify (input : ClassifyInput)
  | rules
  | dump
  | describe
  | config
  | isEmpty
  | counters
  | chain (hash : UInt32)
  | hold (name : String)
  | held (name : String)
  | observe (name : String) (reactions : List Command)
  | unobserve (name : String)
  | registerPlugin (callback : Callback) (verdict : Verdict)
  | unregisterPlugin (callback : Callback)
  | pluginSlots
  | pluginValidate (query : WlanQuery)
  | pluginQuery (query : WlanQuery)
  | unreadable (fault : CommandFault)

inductive Reply where
  | done
  | flag (value : Bool)
  | optionalFlag (value : Option Bool)
  | update (result : UpdateResult)
  | request (ruleId : UInt32) (result : UpdateResult)
  | rule (result : Except UpdateError Rule)
  | listing (result : Except UpdateError (List Rule))
  | flushed (result : Except UpdateError Nat)
  | applied (result : Except RuleSetError ApplySummary)
  | decided (decision : Decision)
  | rules (rules : List Rule)
  | lines (lines : List String)
  | text (text : String)
  | config (config : TableConfig)
  | counters (counters : Counters)
  | chain (nodes : List Node)
  | store (store : Option Store)
  | registered (result : Except PluginError Unit)
  | slots (validator query : Bool)
  | verdict (result : Except PluginError Bool)
  | refused (fault : CommandFault)

end TrafficRules
