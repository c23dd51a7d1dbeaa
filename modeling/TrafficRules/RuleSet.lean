import TrafficRules.Table
/-!
# RuleSet — the rules a table is seeded with

A rule set lists rules, each of which may be switched off.  It is checked as a whole before any rule is stored:
every rule passes its own check, every rule but a flow-keyed one has an id, and no id is used twice in a family.  Rules that
are switched off are checked as well.  Then the enabled rules are added in order, up to the first that is refused, to a
table that is there (`RuleSet.apply`, with a summary of what became of them) or to a fresh one (`RuleSet.toTable`).

Messages give the causes of an error from the outside in.  `RuleSet.sample` is a set to start from.
-/
namespace TrafficRules

structure RuleEntry where
  enabled : Bool := true
  rule : Rule
  deriving DecidableEq, Repr

structure RuleSet where
  rules : List RuleEntry := []
  deriving DecidableEq, Inhabited, Repr

inductive RuleSetFault where
  | invalidRule (position : Nat) (id : UInt32) (fault : RuleFault)
  | needsId (position : Nat) (classifier : Classifier)
  | duplicateId (id : UInt32) (classifier : Classifier)
  deriving DecidableEq, Repr

def RuleSetFault.message : RuleSetFault → String
  | .invalidRule i id f => s!"Rule #{i} ({id}) is invalid: " ++ (UpdateError.invalidEntry f.message).message
  | .needsId i c => s!"Rule #{i} of type " ++ c.name ++ " needs an id"
  | .duplicateId id c => s!"Duplicate rule id {id} for type " ++ c.name

inductive RuleSetError where
  | unreadable (path reason : String)
  | unparsable
  | rejected (fault : RuleSetFault)
  | inFile (path : String) (error : RuleSetError)
  | notInstalled (id : UInt32) (error : UpdateError)
  | notBuilt (error : UpdateError)
  deriving DecidableEq, Repr

def RuleSetError.message : RuleSetError → String
  | .unreadable path reason => "Failed to read rule file: " ++ path ++ ": " ++ reason
  | .unparsable => "Failed to parse rule set"
  | .rejected f => f.message
  | .inFile path e => "Failed to load rule file: " ++ path ++ ": " ++ e.message
  | .notInstalled id e => s!"Failed to install rule {id}: " ++ e.message
  | .notBuilt e => "Failed to build rule table: " ++ e.message

structure ApplySummary where
  added : Nat := 0
  modified : Nat := 0
  skipped : Nat := 0
  deriving DecidableEq, Inhabited, Repr

namespace RuleSet

/-- The fault of one rule at its position, the identities before it being taken. -/
def entryFault? (position : Nat) (taken : List (Classifier × UInt32)) (r : Rule) : Option RuleSetFault :=
  match r.fault? with
  | some f => some (.invalidRule position r.id f)
  | none =>
    if r.id = noRuleId then if r.classifier.isFlowKeyed then none else some (.needsId position r.classifier)
    else if taken.contains (r.classifier, r.id) then some (.duplicateId r.id r.classifier)
    else none

def faultFrom? : Nat → List (Classifier × UInt32) → List RuleEntry → Option RuleSetFault
  | _, _, [] => none
  | i, taken, e :: es =>
    match entryFault? i taken e.rule with
    | some f => some f
    | none =>
      faultFrom? (i + 1) (if e.rule.id = noRuleId then taken else (e.rule.classifier, e.rule.id) :: taken) es

def fault? (s : RuleSet) : Option RuleSetFault := faultFrom? 0 [] s.rules

def enabledRules (s : RuleSet) : List Rule := (s.rules.filter (·.enabled)).map (·.rule)

/-- Adds the enabled rules one by one to whatever takes rules, and stops at the first that is refused. -/
def applyTo {σ : Type} (add : σ → Rule → σ × UpdateResult) :
    List RuleEntry → ApplySummary → σ → σ × Except RuleSetError ApplySummary
  | [], sum, t => (t, .ok sum)
  | e :: es, sum, t =>
    if e.enabled then
      match add t e.rule with
      | (t, .error err) => (t, .error (.notInstalled e.rule.id err))
      | (t, .ok (.modified _)) => applyTo add es { sum with modified := sum.modified + 1 } t
      | (t, .ok _) => applyTo add es { sum with added := sum.added + 1 } t
    else applyTo add es { sum with skipped := sum.skipped + 1 } t

end RuleSet

namespace Table

/-- Adds rules in order, up to the first that is refused. -/
def addAll : List Rule → Table → Except UpdateError Table
  | [], t => .ok t
  | r :: rs, t =>
    match (t.add r).result with
    | .error e => .error e
    | .ok _ => addAll rs (t.add r).table

def apply (t : Table) (s : RuleSet) : Table × Except RuleSetError ApplySummary :=
  RuleSet.applyTo (fun t r => ((t.add r).table, (t.add r).result)) s.rules {} t

end Table

namespace RuleSet

def toTable (s : RuleSet) (config : TableConfig) : Except RuleSetError Table :=
  (Table.addAll s.enabledRules { config }).mapError .notBuilt

def sample : RuleSet :=
  ⟨[{ rule := { id := 1, classifier := .mesh, precedence := 10
                mesh := MeshMatch.require {} (.destPort 5060) .positive, output := { priority := 6 } } },
    { rule := { id := 2, classifier := .mesh, mesh := .everything, output := { priority := Action.useUpCode } } },
    { rule := { id := 5, classifier := .scs, precedence := 4, flow := { dstPort := some 443, protocol := some 6 }
                output := { priority := 6, serviceClassId := some 12 } } }]⟩

end RuleSet
end TrafficRules
