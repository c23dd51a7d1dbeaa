import TrafficRules.CommandLine.Help
import TrafficRules.Document.Json
import TrafficRules.Document.Layer
import TrafficRules.Document.RuleFile
/-!
# CommandLine — the tasks of the program

Every task loads the settings, loads the rule file and installs its rules in a fresh table (`installed`).  `check` then
counts the rules, those the set lists, those the table holds and those of each family; `dump` lists them in evaluation
order; and `classify` answers a list of requests in turn, each answer on a line.

A run ends with a report: what it wrote on either stream, and its code.  Files are read by a function that is handed in
with the rest of the world around the program (`World`), so a run can be carried out on files that exist only as data.
-/
namespace TrafficRules
namespace CommandLine

structure Report where
  exitCode : UInt8 := 0
  output : String := ""
  errors : String := ""
  deriving DecidableEq, Repr

inductive Fault where
  | settingsNotLoaded (path : String) (error : ConfigError)
  | settingsRejected (error : ConfigError)
  | noRuleFile
  | rules (error : RuleSetError)
  | requestsUnreadable (path : String) (fault : FileFault)
  | requestsUnparsable (path : String)
  deriving DecidableEq, Repr

/-- The causes from the outside in.  A fault of the settings is named by the engine and again by itself. -/
def Fault.message : Fault → String
  | .settingsNotLoaded path e =>
    "Failed to load config file: " ++ path ++ ": " ++ (EngineError.config e).message ++ ": " ++ e.message
  | .settingsRejected e => "Invalid configuration: " ++ (EngineError.config e).message ++ ": " ++ e.message
  | .noRuleFile => "No rule file given (use --rules or set \x60rules\x60 in the configuration)"
  | .rules e => e.message
  | .requestsUnreadable path f => "Failed to read request file: " ++ path ++ ": " ++ f.message
  | .requestsUnparsable path => "Failed to parse request file: " ++ path

def lines (ls : List String) : String := String.join (ls.map (· ++ "\n"))

/-- How many rules a set lists, how many the table holds, and how many of each family. -/
def checkReport (set : RuleSet) (t : Table) : Value :=
  let families := (Classifier.all.map fun c => (c, (t.store.family c).length)).filter (0 < ·.2)
  .record [("rules", .ofNat set.rules.length), ("enabled", .ofNat t.size),
    ("families", .list (families.map fun (c, n) => .list [c.toValue, .ofNat n]))]

def dump (t : Table) (json : Bool) (classifier : Option Classifier) : String :=
  let rules := t.rules.filter fun r => classifier.all (r.classifier == ·)
  if json then lines [Json.pretty (.list (rules.map (·.toValue)))] else lines (rules.map (·.render))

def answers : Nat → List ClassifyInput → Table → List String × Table
  | _, [], t => ([], t)
  | index, i :: is, t =>
    let line := Json.compact (.record [("index", .ofNat index), ("input", i.toValue), ("decision", (t.decide i).toValue)])
    let (more, t) := answers (index + 1) is (t.counting i)
    (line :: more, t)

def classify (t : Table) (stats : Bool) (requests : List ClassifyInput) : Report :=
  let (answered, t) := answers 0 requests t
  { output := lines answered, errors := if stats then lines [Json.pretty t.counters.toValue] else "" }

structure World (m : Type → Type) where
  contents : String → m FileResult
  environment : List (String × String)

section

variable {m : Type → Type} [Monad m]

def settings (w : World m) : Option String → m (Except Fault Settings)
  | none => pure (accept {})
  | some path => do
    match ← Settings.loadLayered w.contents path w.environment with
    | .error e => return .error (.settingsNotLoaded path e)
    | .ok s => return accept s
where
  accept (s : Settings) : Except Fault Settings :=
    match s.fault? with
    | some e => .error (.settingsRejected e)
    | none => .ok s

/-- The rule set of a run and the table it fills. -/
def installed (w : World m) (s : Settings) (rules : Option String) : m (Except Fault (RuleSet × Table)) := do
  match rules.or s.rules with
  | none => return .error .noRuleFile
  | some path =>
    match RuleSet.ofFile path (← w.contents path) with
    | .error e => return .error (.rules e)
    | .ok set =>
      match Table.apply { config := s.table } set with
      | (_, .error e) => return .error (.rules e)
      | (t, .ok _) => return .ok (set, t)

def performTask (w : World m) (set : RuleSet) (t : Table) : Task → m (Except Fault Report)
  | .check => return .ok { output := lines [Json.pretty (checkReport set t)] }
  | .dump json classifier => return .ok { output := dump t json classifier }
  | .classify input stats => do
    match ← w.contents input with
    | .error f => return .error (.requestsUnreadable input f)
    | .ok text =>
      match ClassifyInput.parseList? text with
      | none => return .error (.requestsUnparsable input)
      | some requests => return .ok (classify t stats requests)

def perform (w : World m) (config rules : Option String) (task : Task) : m (Except Fault Report) := do
  match ← settings w config with
  | .error f => return .error f
  | .ok s =>
    match ← installed w s rules with
    | .error f => return .error f
    | .ok (set, t) => performTask w set t task

/-- A run of the program: arguments that make no sense end it with code 2, a fault with code 1. -/
def run (w : World m) (arguments : List String) : m Report := do
  let configVariable := w.environment.lookup "SPM_CONFIG"
  match parse? configVariable arguments with
  | none => return { exitCode := 2, errors := lines [usageLine "spm" programForms " <COMMAND>"] }
  | some (.answer question task) => return { output := question.answer configVariable task }
  | some (.perform config rules task) =>
    match ← perform w config rules task with
    | .ok report => return report
    | .error f => return { exitCode := 1, errors := lines ["Error: " ++ f.message] }

end

end CommandLine
end TrafficRules
