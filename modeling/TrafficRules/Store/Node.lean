import TrafficRules.Rule
/-!
# Node — a rule as stored

A node is a rule at its stored precedence with a serial number that tells it from every other node, equal rules
included (`Node.is`).  `Node.sameIdentity` says when an incoming node takes the place of a stored one, `Node.replaceIn`
puts it there, at the first occurrence, and `Node.removeFrom` takes a node out wherever it occurs.  A caller names a rule by
its id or by its tuple (`Selector`); what is reported missing is the id, or no id for a tuple.
-/
namespace TrafficRules

structure Node where
  serial : Nat
  rule : Rule
  deriving DecidableEq, Repr

namespace Node

def ofRule (serial : Nat) (r : Rule) : Node := ⟨serial, r.normalized⟩

def key (n : Node) : UInt32 := n.rule.key

def tuple? (n : Node) : Option FlowTuple := n.rule.flowTuple?

def is (a b : Node) : Bool := a.serial == b.serial

/-- The stored node `n` is the rule that `new` stands for: of the same family, and of the same tuple when `new` is
flow-keyed and has no id, else of the same id. -/
def sameIdentity (n new : Node) : Bool :=
  n.rule.classifier == new.rule.classifier
    && if new.rule.classifier.isFlowKeyed && new.rule.id == noRuleId then n.tuple? == new.tuple?
      else n.rule.id == new.rule.id

def replaceIn (old new : Node) : List Node → List Node
  | [] => []
  | n :: ns => if n.is old then new :: ns else n :: replaceIn old new ns

def removeFrom (old : Node) (ns : List Node) : List Node := ns.filter (!·.is old)

end Node

inductive Selector where
  | id (id : UInt32)
  | flow (tuple : FlowTuple)
  deriving DecidableEq, Repr

def Selector.reportedId : Selector → UInt32
  | .id n => n
  | .flow _ => noRuleId

end TrafficRules
