/-!
# Notifier — observers in order of registration

Every registration puts an observer last and gets a number of its own, by which it is taken away again.  A notification
runs the callback of every observer present when it starts, in order; what they register or unregister meanwhile counts
from the next one on.
-/
namespace TrafficRules

structure Notifier (α : Type) where
  observers : List (Nat × α) := []
  nextId : Nat := 0

namespace Notifier

variable {α : Type}

def size (n : Notifier α) : Nat := n.observers.length

def register (n : Notifier α) (a : α) : Notifier α × Nat :=
  ({ observers := n.observers ++ [(n.nextId, a)], nextId := n.nextId + 1 }, n.nextId)

def unregister (n : Notifier α) (id : Nat) : Notifier α × Bool :=
  ({ n with observers := n.observers.filter (·.1 != id) }, n.observers.any (·.1 == id))

def deliver {σ : Type} (callback : α → σ → σ) (n : Notifier α) (s : σ) : σ :=
  n.observers.foldl (fun s o => callback o.2 s) s

def describe (n : Notifier α) : String := s!"ChangeNotifier \x7b observers: {n.size} \x7d"

end Notifier
end TrafficRules
