import TrafficRules.Outcome
import TrafficRules.Store
import TrafficRules.Table.Counters
/-!
# Table — the rule table and its changes

A table is a store with its limits, its counters, its plugin slots and the serial number of its next node.  Each change is
a function that answers with the next table, the result, the event to announce and the plugin calls made on the way
(`Transition`); who may write and who is told is decided one level up.

An addition checks the room, then the rule, then asks the validator of wireless parameters, and stores the rule in the
place of the one it stands for if there is one (`Table.install`).  Deletions and queries find the rule that a caller names
and differ only in what they do with it; neither the removal of a flow-keyed rule nor a flush is announced.  In what order
the chains are searched is an argument of `Table.deleteAlong` and `Table.queryAlong`; `Table.delete` and `Table.query` go by
ascending keys.
-/
namespace TrafficRules

structure TableConfig where
  maxRules : UInt64 := 1024
  defaultPcp : UInt8 := 0
  deriving DecidableEq, Inhabited, Repr

inductive ChangeKind where
  | added
  | modified
  | removed
  deriving DecidableEq, Repr

namespace ChangeKind

def all : List ChangeKind := [.added, .modified, .removed]

def name : ChangeKind → String
  | .added => "added"
  | .modified => "modified"
  | .removed => "removed"

def ofName? (s : String) : Option ChangeKind := all.find? (·.name == s)

end ChangeKind

structure Event where
  kind : ChangeKind
  rule : Rule
  key : UInt32
  deriving DecidableEq, Repr

structure Consultation where
  callback : Callback
  query : WlanQuery
  answer : Bool
  deriving DecidableEq, Repr

structure Table where
  config : TableConfig := {}
  store : Store := .empty
  counters : Counters := {}
  plugins : Plugins := {}
  nextSerial : Nat := 0

inductive WlanRefusal where
  | rejected (id : UInt32)
  | noValidator
  deriving DecidableEq, Repr

def WlanRefusal.message : WlanRefusal → String
  | .rejected id => s!"WLAN parameters of rule {id} rejected by validator"
  | .noValidator => "WLAN rule needs a registered validator"

/-- A change carried out or refused. -/
structure Transition (α : Type) where
  table : Table
  result : Except UpdateError α
  event : Option Event := none
  consulted : List Consultation := []

namespace Table

def rules (t : Table) : List Rule := t.store.nodes.map (·.rule)

def size (t : Table) : Nat := t.store.count

def tally (t : Table) (x : Tally) : Table := { t with counters := t.counters.tally x }

/-- What a validator is asked about a rule before it is stored. -/
def wlanQuestion? (r : Rule) : Option WlanQuery := if r.isWlan then r.wlan.map WlanQuery.ofRule else none

def validatorCalls (t : Table) (r : Rule) : List Consultation :=
  match wlanQuestion? r, t.plugins.validator with
  | some q, some v => [⟨.validate, q, v q⟩]
  | _, _ => []

def wlanRefusal? (t : Table) (r : Rule) : Option WlanRefusal :=
  (wlanQuestion? r).bind fun q =>
    match t.plugins.validate q with
    | .error _ => some .noValidator
    | .ok true => none
    | .ok false => some (.rejected r.id)

/-- Stores a rule that passed every check, in the place of the rule it stands for if there is one. -/
def install (t : Table) (r : Rule) : Transition Outcome :=
  let node := Node.ofRule t.nextSerial r
  let key := node.tuple?.map fun _ => node.key
  let t := { t with nextSerial := t.nextSerial + 1 }
  match t.store.findSame node with
  | some old =>
    { table := { t with store := t.store.replace old node }.tally .modified
      result := .ok (.modified key)
      event := some ⟨.modified, node.rule, node.key⟩ }
  | none =>
    { table := { t with store := t.store.insert node }.tally .added
      result := .ok (.added key)
      event := some ⟨.added, node.rule, node.key⟩ }

/-- Adds a rule or modifies the one it stands for.  A full table refuses either, before the rule is looked at. -/
def add (t : Table) (r : Rule) : Transition Outcome :=
  if t.config.maxRules.toNat ≤ t.size then { table := t, result := .error (.tableFull t.config.maxRules) }
  else match r.fault? with
    | some f => { table := t, result := .error (.invalidEntry f.message) }
    | none =>
      match t.wlanRefusal? r with
      | some x => { table := t, result := .error (.invalidEntry x.message), consulted := t.validatorCalls r }
      | none => { t.install r with consulted := t.validatorCalls r }

def deleteAlong (t : Table) (order : Index) (sel : Selector) (c : Classifier) : Transition Outcome :=
  if t.store.isEmpty then { table := t, result := .error .tableEmpty }
  else match t.store.findAlong order sel c with
    | none => { table := t, result := .error (.ruleNotFound sel.reportedId c) }
    | some n =>
      { table := { t with store := (t.store.remove? n).getD t.store }.tally (.deleted 1)
        result := .ok .deleted
        event := if c.isFlowKeyed then none else some ⟨.removed, n.rule, n.key⟩ }

def delete (t : Table) (sel : Selector) (c : Classifier) : Transition Outcome := t.deleteAlong t.store.index sel c

theorem delete_eq (t : Table) (sel : Selector) (c : Classifier) : t.delete sel c =
    if t.store.isEmpty then { table := t, result := .error .tableEmpty }
    else match t.store.find sel c with
      | none => { table := t, result := .error (.ruleNotFound sel.reportedId c) }
      | some n =>
        { table := { t with store := (t.store.remove? n).getD t.store }.tally (.deleted 1)
          result := .ok .deleted
          event := if c.isFlowKeyed then none else some ⟨.removed, n.rule, n.key⟩ } := rfl

/-- Removes a family or everything, unannounced; an empty table is left as it is, uncounted. -/
def flush (t : Table) (c : Option Classifier) : Transition Nat :=
  if t.store.isEmpty then { table := t, result := .ok 0 }
  else
    let (store, removed) := t.store.removeFamily c
    { table := ({ t with store }.tally .flush).tally (.deleted (UInt64.ofNat removed)), result := .ok removed }

/-- The rule a caller names, found in some order of the chains. -/
def queryAlong (t : Table) (order : Index) (sel : Selector) (c : Classifier) : Except UpdateError Rule :=
  if t.store.isEmpty then .error .tableEmpty
  else match t.store.findAlong order sel c with
    | none => .error (.ruleNotFound sel.reportedId c)
    | some n => .ok n.rule

def query (t : Table) (sel : Selector) (c : Classifier) : Except UpdateError Rule := t.queryAlong t.store.index sel c

theorem query_eq (t : Table) (sel : Selector) (c : Classifier) : t.query sel c =
    if t.store.isEmpty then .error .tableEmpty
    else match t.store.find sel c with
      | none => .error (.ruleNotFound sel.reportedId c)
      | some n => .ok n.rule := rfl

/-- The rules of a family in evaluation order; flow-keyed rules are not listed. -/
def queryByType (t : Table) (c : Classifier) : Except UpdateError (List Rule) :=
  if c.isFlowKeyed then .error (.invalidEntry ("query by type is not supported for " ++ c.name ++ " rules"))
  else if t.store.isEmpty then .error .tableEmpty
  else .ok ((t.store.family c).map (·.rule))

end Table
end TrafficRules
