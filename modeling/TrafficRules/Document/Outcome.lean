import TrafficRules.Document.Lookup
import TrafficRules.Engine
import TrafficRules.Settings
/-!
# Outcome — documents of results, errors and requests

An error is a record of a type and its details, which are held while the type is read.  The type is a text or a case
that carries nothing.
-/
namespace TrafficRules

def AllocationTarget.toValue (t : AllocationTarget) : Value := .text t.name

def AllocationTarget.ofValue? (v : Value) : Option AllocationTarget :=
  v.named? (AllocationTarget.all.map (·.name)) AllocationTarget.ofName?

namespace UpdateError

def toValue : UpdateError → Value
  | .tableFull n => .record [("TableFull", .record [("capacity", .u64 n)])]
  | .invalidEntry reason => .record [("InvalidEntry", .record [("reason", .text reason)])]
  | .allocationFailure t => .record [("AllocationFailure", .record [("target", t.toValue)])]
  | .tableEmpty => .text "TableEmpty"
  | .ruleNotFound id c => .record [("RuleNotFound", .record [("id", .u32 id), ("classifier", c.toValue)])]
  | .concurrentWriteRejected => .text "ConcurrentWriteRejected"
  | .unknownCommand n => .record [("UnknownCommand", .record [("code", .u8 n)])]

def caseNames : List String :=
  ["TableFull", "InvalidEntry", "AllocationFailure", "TableEmpty", "RuleNotFound", "ConcurrentWriteRejected",
   "UnknownCommand"]

def ofCase? (c : Value.Choice) : Option UpdateError :=
  match c.name with
  | "TableFull" => do
    let fs ← c.fields? ["capacity"]
    (fs.required "capacity" Value.u64?).map .tableFull
  | "InvalidEntry" => do
    let fs ← c.fields? ["reason"]
    (fs.required "reason" Value.text?).map .invalidEntry
  | "AllocationFailure" => do
    let fs ← c.fields? ["target"]
    (fs.required "target" AllocationTarget.ofValue?).map .allocationFailure
  | "RuleNotFound" => do
    let fs ← c.fields? ["id", "classifier"]
    let id ← fs.required "id" Value.u32?
    let c ← fs.required "classifier" Classifier.ofValue?
    some (.ruleNotFound id c)
  | "UnknownCommand" => do
    let fs ← c.fields? ["code"]
    (fs.required "code" Value.u8?).map .unknownCommand
  | "TableEmpty" => if c.isBare then some .tableEmpty else none
  | "ConcurrentWriteRejected" => if c.isBare then some .concurrentWriteRejected else none
  | _ => none

def ofValue? (v : Value) : Option UpdateError := (v.choice? caseNames).bind ofCase?

end UpdateError

namespace ConfigError

def toValue : ConfigError → Value
  | .fileNotFound path => .record [("FileNotFound", .record [("path", .text path)])]
  | .loadFailed path reason => .record [("LoadFailed", .record [("path", .text path), ("reason", .text reason)])]
  | .invalidFormat reason => .record [("InvalidFormat", .record [("reason", .text reason)])]
  | .invalidValue field reason =>
    .record [("InvalidValue", .record [("field", .text field), ("reason", .text reason)])]
  | .validationFailed reason => .record [("ValidationFailed", .record [("reason", .text reason)])]

def caseNames : List String := ["FileNotFound", "LoadFailed", "InvalidFormat", "InvalidValue", "ValidationFailed"]

def ofCase? (c : Value.Choice) : Option ConfigError :=
  match c.name with
  | "FileNotFound" => do
    let fs ← c.fields? ["path"]
    (fs.required "path" Value.text?).map .fileNotFound
  | "LoadFailed" => do
    let fs ← c.fields? ["path", "reason"]
    let path ← fs.required "path" Value.text?
    let reason ← fs.required "reason" Value.text?
    some (.loadFailed path reason)
  | "InvalidFormat" => do
    let fs ← c.fields? ["reason"]
    (fs.required "reason" Value.text?).map .invalidFormat
  | "InvalidValue" => do
    let fs ← c.fields? ["field", "reason"]
    let field ← fs.required "field" Value.text?
    let reason ← fs.required "reason" Value.text?
    some (.invalidValue field reason)
  | "ValidationFailed" => do
    let fs ← c.fields? ["reason"]
    (fs.required "reason" Value.text?).map .validationFailed
  | _ => none

def ofValue? (v : Value) : Option ConfigError := (v.choice? caseNames).bind ofCase?

end ConfigError

namespace EngineError

def toValue : EngineError → Value
  | .update e => .record [("type", .text "Update"), ("details", e.toValue)]
  | .config e => .record [("type", .text "Config"), ("details", e.toValue)]

def ofType? (type : String) (details : Value) : Option EngineError :=
  if type = "Update" then (UpdateError.ofValue? details).map .update
  else if type = "Config" then (ConfigError.ofValue? details).map .config
  else none

def type? (v : Value) : Option String := (v.choice? ["Update", "Config"]).bind fun c => if c.isBare then some c.name else none

def ofFields? (fs : Fields) : Option EngineError := do
  let type ← fs.required "type" type?
  let details ← fs.required "details" fun v => some v.held
  ofType? type details

def ofValue? : Value → Option EngineError
  | .record fs => ofFields? fs
  | .list [type, details] => type.text?.bind (ofType? · details)
  | _ => none

end EngineError

namespace Outcome

def toValue : Outcome → Value
  | .added k => .record [("Added", .record [("key", .orNull .u32 k)])]
  | .deleted => .text "Deleted"
  | .modified k => .record [("Modified", .record [("key", .orNull .u32 k)])]
  | .found r => .record [("Found", r.toValue)]

def caseNames : List String := ["Added", "Deleted", "Modified", "Found"]

def ofCase? (c : Value.Choice) : Option Outcome :=
  match c.name with
  | "Added" => do
    let fs ← c.fields? ["key"]
    (fs.optional "key" Value.u32?).map .added
  | "Modified" => do
    let fs ← c.fields? ["key"]
    (fs.optional "key" Value.u32?).map .modified
  | "Deleted" => if c.isBare then some .deleted else none
  | "Found" => c.content.bind Rule.ofValue? |>.map .found
  | _ => none

def ofValue? (v : Value) : Option Outcome := (v.choice? caseNames).bind ofCase?

end Outcome

namespace RuleStatus

def toValue (s : RuleStatus) : Value :=
  .record [("rule_id", .u32 s.ruleId), ("code", .u8 s.code), ("key", .orNull .u32 s.key)]

def ofValue? (v : Value) : Option RuleStatus := do
  let fs ← v.fields? ["rule_id", "code", "key"] 3
  let ruleId ← fs.required "rule_id" Value.u32?
  let code ← fs.required "code" Value.u8?
  let key ← fs.optional "key" Value.u32?
  some { ruleId, code, key }

end RuleStatus

def RuleRequest.ofValue? (v : Value) : Option RuleRequest := do
  let fs ← v.fields? ["command", "rule"] 2
  let command ← fs.required "command" Value.u8?
  let rule ← fs.required "rule" Rule.ofValue?
  some { command, rule }

def ChangeKind.toValue (k : ChangeKind) : Value := .text k.name

def ChangeKind.ofValue? (v : Value) : Option ChangeKind :=
  v.named? (ChangeKind.all.map (·.name)) ChangeKind.ofName?

def Event.ofValue? (v : Value) : Option Event := do
  let fs ← v.fields? ["kind", "rule", "key"] 3
  let kind ← fs.required "kind" ChangeKind.ofValue?
  let rule ← fs.required "rule" Rule.ofValue?
  let key ← fs.required "key" Value.u32?
  some { kind, rule, key }

end TrafficRules
