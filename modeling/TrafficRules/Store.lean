import TrafficRules.Store.Index
/-!
# Store — rules by precedence and by key

Every node stands twice: in the bucket of its precedence, behind those that came before it, and in the chain of its
key.  Evaluation reads the buckets from the highest precedence down (`Store.nodes`, and `Store.family` for the nodes of one
family), queries read the chains (`Store.findSame` for the node an incoming one stands for, `Store.find` for the one that a
caller names).  A node is inserted last in its bucket and last in its chain, and taken from both; a family is taken out of
every bucket and every chain, and a flush of everything starts afresh with the count of what there was.

A flow-keyed rule named by its id may stand under any key, and one without an id is found by its tuple only.  So a search
by such an id goes through all the chains, and where rules under several keys have the id their order decides.  The order
in which a table of hashed keys gives its chains is not promised by anything and need not last, so it is an argument
(`Store.findAlong`).
-/
namespace TrafficRules

structure Store where
  buckets : Vector (List Node) Rule.precedenceCount
  index : Index
  count : Nat

namespace Store

def empty : Store := ⟨Vector.replicate _ [], [], 0⟩

instance : Inhabited Store := ⟨empty⟩

def isEmpty (s : Store) : Bool := s.count == 0

def nodes (s : Store) : List Node := s.buckets.toList.reverse.flatten

def family (s : Store) (c : Classifier) : List Node := s.nodes.filter (·.rule.classifier == c)

def flowChain (s : Store) (hash : UInt32) : List Node :=
  (s.index.chain hash).filter (·.rule.classifier.isFlowKeyed)

def findSame (s : Store) (n : Node) : Option Node := (s.index.chain n.key).find? (·.sameIdentity n)

def findAlong (s : Store) (order : Index) (sel : Selector) (c : Classifier) : Option Node :=
  match sel with
  | .id id =>
    if c.isFlowKeyed then
      if id = noRuleId then none
      else order.nodes.find? fun n => n.rule.classifier == c && n.rule.id == id
    else (s.index.chain id).find? fun n => n.rule.classifier == c && n.rule.id == id
  | .flow t => (s.index.chain t.hash).find? fun n => n.rule.classifier == c && n.tuple? == some t

/-- The node a caller names.  Ascending keys are this library's choice among the orders: of the flow-keyed rules of one
id under several keys nobody is promised which is found. -/
def find (s : Store) (sel : Selector) (c : Classifier) : Option Node := s.findAlong s.index sel c

def onBucket (f : List Node → List Node) (p : Fin Rule.precedenceCount) (s : Store) : Store :=
  { s with buckets := s.buckets.set p (f s.buckets[p]) }

def onChain (f : List Node → List Node) (key : UInt32) (s : Store) : Store :=
  { s with index := s.index.alter f key }

def insert (s : Store) (n : Node) : Store :=
  let s := (s.onBucket (· ++ [n]) n.rule.bucket).onChain (· ++ [n]) n.key
  { s with count := s.count + 1 }

/-- Puts a node in the place of another: in its place in the bucket when both have one precedence, else last in its
own bucket; always in its place in the chain. -/
def replace (s : Store) (old new : Node) : Store :=
  let s :=
    if old.rule.bucket = new.rule.bucket then s.onBucket (Node.replaceIn old new) old.rule.bucket
    else (s.onBucket (Node.removeFrom old) old.rule.bucket).onBucket (· ++ [new]) new.rule.bucket
  s.onChain (Node.replaceIn old new) old.key

/-- A count is a 64-bit word: more nodes taken than were counted wrap it around. -/
def lowered (count taken : Nat) : Nat := if taken ≤ count then count - taken else count + UInt64.size - taken

/-- Takes a node away; nothing when its bucket does not hold it. -/
def remove? (s : Store) (n : Node) : Option Store :=
  if s.buckets[n.rule.bucket].any (·.is n) then
    let s := (s.onBucket (Node.removeFrom n) n.rule.bucket).onChain (Node.removeFrom n) n.key
    some { s with count := lowered s.count 1 }
  else none

/-- Takes a family away, or everything, and says how many nodes went. -/
def removeFamily (s : Store) : Option Classifier → Store × Nat
  | none => (empty, s.count)
  | some c =>
    let removed := (s.family c).length
    (⟨s.buckets.map (·.filter (·.rule.classifier != c)), s.index.filter (·.rule.classifier != c),
      lowered s.count removed⟩, removed)

end Store
end TrafficRules
