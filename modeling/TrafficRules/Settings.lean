import TrafficRules.Table
/-!
# Settings — how the engine is set up

Table limits, logging, metrics and the rule file, each section with defaults.  `Settings.fault?` is the check made
before anything is built from them: the first fault of the table section, which needs room for a rule and a default
priority below eight, of the log level, which is a number or a name in any case, and of the rule path.  `EngineError` is
any failure of the engine, one of these among them.
-/
namespace TrafficRules

inductive ConfigError where
  | fileNotFound (path : String)
  | loadFailed (path reason : String)
  | invalidFormat (reason : String)
  | invalidValue (field reason : String)
  | validationFailed (reason : String)
  deriving DecidableEq, Repr

namespace ConfigError

def name : ConfigError → String
  | .fileNotFound _ => "FileNotFound"
  | .loadFailed _ _ => "LoadFailed"
  | .invalidFormat _ => "InvalidFormat"
  | .invalidValue _ _ => "InvalidValue"
  | .validationFailed _ => "ValidationFailed"

def message : ConfigError → String
  | .fileNotFound path => "Configuration file not found: " ++ path
  | .loadFailed path reason => "Failed to load configuration from " ++ path ++ ": " ++ reason
  | .invalidFormat reason => "Invalid configuration format: " ++ reason
  | .invalidValue field reason => "Invalid configuration value for '" ++ field ++ "': " ++ reason
  | .validationFailed reason => "Configuration validation failed: " ++ reason

end ConfigError

inductive EngineError where
  | update (error : UpdateError)
  | config (error : ConfigError)
  deriving DecidableEq, Repr

def EngineError.message : EngineError → String
  | .update e => "Update error: " ++ e.message
  | .config e => "Configuration error: " ++ e.message

inductive LogFormat where
  | text
  | json
  deriving DecidableEq, Inhabited, Repr

namespace LogFormat

def all : List LogFormat := [.text, .json]

def name : LogFormat → String
  | .text => "text"
  | .json => "json"

def ofName? (s : String) : Option LogFormat := all.find? (·.name == s)

end LogFormat

inductive LogLevel where
  | error
  | warn
  | info
  | debug
  | trace
  deriving DecidableEq, Repr

namespace LogLevel

def all : List LogLevel := [.error, .warn, .info, .debug, .trace]

def name : LogLevel → String
  | .error => "ERROR"
  | .warn => "WARN"
  | .info => "INFO"
  | .debug => "DEBUG"
  | .trace => "TRACE"

/-- A place in the list of levels, from one on, with an optional plus sign. -/
def ofNumber? (s : String) : Option LogLevel :=
  let digits := match s.toList with
    | '+' :: cs => cs
    | cs => cs
  (Digits.toNat? 10 digits).bind fun n => if n = 0 then none else all[n - 1]?

def parse? (s : String) : Option LogLevel := (ofNumber? s).or (all.find? (sameIgnoringCase ·.name s))

end LogLevel

structure LogSettings where
  level : String := "info"
  format : LogFormat := .text
  deriving DecidableEq, Inhabited, Repr

structure Settings where
  table : TableConfig := {}
  logging : LogSettings := {}
  metricsEnabled : Bool := true
  rules : Option String := none
  deriving DecidableEq, Inhabited, Repr

def TableConfig.fault? (c : TableConfig) : Option ConfigError :=
  if c.maxRules = 0 then some (.invalidValue "table.max_rules" "must be at least 1")
  else if 7 < c.defaultPcp then some (.invalidValue "table.default_pcp" s!"{c.defaultPcp} is not a PCP value (0-7)")
  else none

def LogSettings.parseLevel (l : LogSettings) : Except ConfigError LogLevel :=
  match LogLevel.parse? l.level with
  | some x => .ok x
  | none => .error (.invalidValue "logging.level" ("Invalid log level: " ++ l.level))

/-- The first fault: of the table section, of the log level, of the rule path. -/
def Settings.fault? (s : Settings) : Option ConfigError :=
  if let some e := s.table.fault? then some e
  else if let .error e := s.logging.parseLevel then some e
  else if s.rules = some "" then some (.validationFailed "rules path is empty")
  else none

end TrafficRules
