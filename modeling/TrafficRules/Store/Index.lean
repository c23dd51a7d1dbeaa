import TrafficRules.Store.Node
/-!
# Index — chains of nodes by key

Keys in ascending order, each with its chain; a key that is not there has an empty chain.  A chain that runs empty is
dropped with its key, so equal contents are equal indexes.  That the order is ascending is a choice made to this end, and
no order of the keys is part of what an index means: a walk through all chains may go in any (`Store.findAlong`).
-/
namespace TrafficRules

abbrev Index := List (UInt32 × List Node)

namespace Index

def chain : Index → UInt32 → List Node
  | [], _ => []
  | (k, ns) :: rest, key => if k = key then ns else chain rest key

def put (key : UInt32) (ns : List Node) (rest : Index) : Index := if ns.isEmpty then rest else (key, ns) :: rest

/-- Changes the chain under one key. -/
def alter (f : List Node → List Node) (key : UInt32) : Index → Index
  | [] => put key (f []) []
  | (k, ns) :: rest =>
    if key < k then put key (f []) ((k, ns) :: rest)
    else if k = key then put key (f ns) rest
    else (k, ns) :: alter f key rest

def filter (p : Node → Bool) : Index → Index
  | [] => []
  | (k, ns) :: rest => put k (ns.filter p) (filter p rest)

def nodes (i : Index) : List Node := i.flatMap (·.2)

end Index
end TrafficRules
