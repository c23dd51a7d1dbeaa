import TrafficRules.Rule
/-!
# Outcome — results of changing the table

Every change is answered by an outcome or an error, each with a numeric code: errors below ten, outcomes from ten on.
Added and modified carry the key of a flow-keyed rule.  `RuleStatus` is the numeric reply to a request about one rule.
-/
namespace TrafficRules

inductive AllocationTarget where
  | node
  | hashEntry
  deriving DecidableEq, Repr

namespace AllocationTarget

def all : List AllocationTarget := [.node, .hashEntry]

def name : AllocationTarget → String
  | .node => "Node"
  | .hashEntry => "HashEntry"

def ofName? (s : String) : Option AllocationTarget := all.find? (·.name == s)

end AllocationTarget

inductive UpdateError where
  | tableFull (capacity : UInt64)
  | tableEmpty
  | allocationFailure (target : AllocationTarget)
  | ruleNotFound (id : UInt32) (classifier : Classifier)
  | unknownCommand (code : UInt8)
  | concurrentWriteRejected
  | invalidEntry (reason : String)
  deriving DecidableEq, Repr

namespace UpdateError

def code : UpdateError → UInt8
  | .tableFull _ => 0
  | .tableEmpty => 1
  | .allocationFailure .node => 2
  | .allocationFailure .hashEntry => 3
  | .ruleNotFound _ _ => 4
  | .unknownCommand _ => 5
  | .concurrentWriteRejected => 6
  | .invalidEntry _ => 7

def name : UpdateError → String
  | .tableFull _ => "TableFull"
  | .tableEmpty => "TableEmpty"
  | .allocationFailure _ => "AllocationFailure"
  | .ruleNotFound _ _ => "RuleNotFound"
  | .unknownCommand _ => "UnknownCommand"
  | .concurrentWriteRejected => "ConcurrentWriteRejected"
  | .invalidEntry _ => "InvalidEntry"

def message : UpdateError → String
  | .tableFull n => s!"Rule table full ({n} rules)"
  | .tableEmpty => "Rule table is empty"
  | .allocationFailure t => "Allocation failure for " ++ t.name
  | .ruleNotFound id c => "Rule 0x" ++ Digits.hex id.toNat ++ " of type " ++ c.name ++ " not found"
  | .unknownCommand n => s!"Unknown command code {n}"
  | .concurrentWriteRejected => "Concurrent write rejected"
  | .invalidEntry reason => "Invalid rule entry: " ++ reason

end UpdateError

/-- What a successful change did; added and modified carry the key of a flow-keyed rule. -/
inductive Outcome where
  | added (key : Option UInt32)
  | deleted
  | modified (key : Option UInt32)
  | found (rule : Rule)
  deriving DecidableEq, Repr

namespace Outcome

def code : Outcome → UInt8
  | .added _ => 10
  | .deleted => 11
  | .modified _ => 12
  | .found _ => 13

def key : Outcome → Option UInt32
  | .added k | .modified k => k
  | _ => none

end Outcome

abbrev UpdateResult := Except UpdateError Outcome

structure RuleStatus where
  ruleId : UInt32
  code : UInt8
  key : Option UInt32 := none
  deriving DecidableEq, Repr

namespace RuleStatus

def ofResult (ruleId : UInt32) : UpdateResult → RuleStatus
  | .ok o => ⟨ruleId, o.code, o.key⟩
  | .error e => ⟨ruleId, e.code, none⟩

def isSuccess (s : RuleStatus) : Bool := 10 ≤ s.code

end RuleStatus
end TrafficRules
