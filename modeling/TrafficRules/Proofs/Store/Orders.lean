import Mathlib.Data.List.Nodup
import TrafficRules.Proofs.Store.Find
/-!
# Orders — chains gone through in any order

A flow-keyed rule named by its id may stand in any chain, so all chains are searched, and their order decides between two
such rules with one id.  No order of them is promised: it may be another after every change of the index.  What does not
depend on it is what a selector names under one key (`Store.OneKey`, `Valid.findAlong_of_oneKey`), and all that a selector
names is under one key but for the flow-keyed rules of one id (`Store.oneKey_of_keyed`).
-/
namespace TrafficRules

namespace Index

variable {i order : Index}

end Index

namespace Store

end Store
end TrafficRules
