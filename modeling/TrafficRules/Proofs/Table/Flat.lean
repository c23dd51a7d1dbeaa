import TrafficRules.Proofs.Table.Run
/-!
# Flat — a table as two lists

The same table without buckets and index: its nodes in evaluation order and once more in order of arrival, where a
replacement takes the place of what it replaces.  Identity and selectors are settled by the first node of `arrival`
that fits.  A flow-keyed rule named by its id is the one thing two lists do not settle: several may fit, and the order
of the index's keys decides.
-/
namespace TrafficRules

structure Flat where
  config : TableConfig
  plugins : Plugins
  nextSerial : Nat := 0
  eval : List Node := []
  arrival : List Node := []

/-- A call the two lists settle: none that names a flow-keyed rule by its id. -/
def Call.isSettled : Call → Bool
  | .delete sel c => sel.isKeyed c
  | .query sel c => sel.isKeyed c
  | _ => true

namespace Flat

/-- The first to arrive of the stored nodes the incoming node stands for. -/
def findSame (f : Flat) (n : Node) : Option Node := f.arrival.find? fun x => x.key == n.key && x.sameIdentity n

/-- The first to arrive of the stored nodes a selector names. -/
def find (f : Flat) (sel : Selector) (c : Classifier) : Option Node := f.arrival.find? (sel.names c)

def put (f : Flat) (n : Node) : Flat :=
  match f.findSame n with
  | none => { f with eval := n.placeIn f.eval, arrival := f.arrival ++ [n] }
  | some x =>
    { f with
      eval := if x.rule.bucket = n.rule.bucket then Node.replaceIn x n f.eval else n.placeIn (Node.removeFrom x f.eval)
      arrival := Node.replaceIn x n f.arrival }

theorem put_config (f : Flat) (n : Node) : (f.put n).config = f.config := by unfold put; split <;> rfl

theorem put_plugins (f : Flat) (n : Node) : (f.put n).plugins = f.plugins := by unfold put; split <;> rfl

def install (f : Flat) (r : Rule) : Flat × Outcome × Event :=
  let node := Node.ofRule f.nextSerial r
  let key := if r.classifier.isFlowKeyed then some node.key else none
  ({ f.put node with nextSerial := f.nextSerial + 1 },
    match f.findSame node with
    | none => (.added key, ⟨.added, node.rule, node.key⟩)
    | some _ => (.modified key, ⟨.modified, node.rule, node.key⟩))

def step (f : Flat) : Call → Flat × Shown
  | .add r =>
    match Table.admission f.config f.plugins f.eval.length r with
    | (some e, calls) => (f, ⟨.add r, .changed (.error e), none, calls⟩)
    | (none, calls) =>
      let (f, outcome, event) := f.install r
      (f, ⟨.add r, .changed (.ok outcome), some event, calls⟩)
  | .delete sel c =>
    if f.eval = [] then (f, { call := .delete sel c, answer := .changed (.error .tableEmpty) })
    else match f.find sel c with
      | none => (f, { call := .delete sel c, answer := .changed (.error (.ruleNotFound sel.reportedId c)) })
      | some n =>
        ({ f with eval := n.removeFrom f.eval, arrival := n.removeFrom f.arrival },
          { call := .delete sel c
            answer := .changed (.ok .deleted)
            event := if c.isFlowKeyed then none else some ⟨.removed, n.rule, n.key⟩ })
  | .flush c =>
    ({ f with eval := f.eval.filter (Store.spared c), arrival := f.arrival.filter (Store.spared c) },
      { call := .flush c, answer := .flushed (.ok (f.eval.filter (!Store.spared c ·)).length) })
  | .query sel c =>
    (f, { call := .query sel c
          answer := .found (if f.eval = [] then .error .tableEmpty
            else match f.find sel c with
              | none => .error (.ruleNotFound sel.reportedId c)
              | some n => .ok n.rule) })
  | .queryByType c =>
    (f, { call := .queryByType c
          answer := .listed (if c.isFlowKeyed then
              .error (.invalidEntry ("query by type is not supported for " ++ c.name ++ " rules"))
            else if f.eval = [] then .error .tableEmpty
            else .ok ((f.eval.filter (·.rule.classifier == c)).map (·.rule))) })
  | .plug plugins => ({ f with plugins }, { call := .plug plugins, answer := .plugged })

def run : List Call → Flat → Flat × List Shown
  | [], f => (f, [])
  | c :: cs, f => ((run cs (f.step c).1).1, (f.step c).2 :: (run cs (f.step c).1).2)

end Flat
end TrafficRules
