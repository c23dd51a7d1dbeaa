import TrafficRules.Document.Lookup
import TrafficRules.Document.Rule
import TrafficRules.Document.Yaml.Print
import TrafficRules.Files
/-!
# RuleFile — rule sets and requests as YAML text

A rule file is a mapping with a list of rules.  Inside a rule every scalar has the type its spelling gives it: a number
does not stand for a text there, nor a text for a number.  A rule set is checked when it is read; a list of requests is
not.
-/
namespace TrafficRules

/-- An entry of a rule file, which stands in a list in a mapping. -/
def RuleEntry.ofNode (d : Yaml.Document) (v : Yaml.Node) : Yaml.Following RuleEntry := do
  let entries ← d.entries v
  let fields ← entries.mapM fun (name, v) => do
    let v ← if name = "enabled" then d.flag v else d.value (Yaml.Document.depthLimit - 3) v
    return (name, v)
  StateT.lift (RuleEntry.ofFields? fields)

namespace RuleSet

def ofDocument (d : Yaml.Document) : Yaml.Following RuleSet := do
  match Entries.get? (← d.entries d.root) "rules" with
  | some (some v) => return ⟨← (← d.items v).mapM (RuleEntry.ofNode d)⟩
  | some none => return {}
  | none => failure

def parse (text : String) : Except RuleSetError RuleSet :=
  match (Yaml.Document.parse? text).bind fun d => (ofDocument d).run' d.aliasLimit with
  | none => .error .unparsable
  | some s =>
    match s.fault? with
    | some f => .error (.rejected f)
    | none => .ok s

def ofFile (path : String) : FileResult → Except RuleSetError RuleSet
  | .error f => .error (.unreadable path f.message)
  | .ok text => (parse text).mapError (.inFile path)

def print (s : RuleSet) : String := Yaml.print s.toValue

end RuleSet

namespace ClassifyInput

def listOfDocument (d : Yaml.Document) : Yaml.Following (List ClassifyInput) := do
  (← d.items d.root).mapM fun v => do StateT.lift (ofValue? (← d.value (Yaml.Document.depthLimit - 1) v))

def parseList? (text : String) : Option (List ClassifyInput) :=
  (Yaml.Document.parse? text).bind fun d => (listOfDocument d).run' d.aliasLimit

end ClassifyInput
end TrafficRules
