import TrafficRules.Document.Yaml.Core
import TrafficRules.Files
import TrafficRules.Settings
/-!
# Settings — documents of settings

One description of the settings' sections and defaults, `Settings.read`, for whatever kind of document they come from.
A kind of document is given by how it spells sections, numbers and texts (`SettingsSource`): data, whose scalars have
one type each, and YAML text, where a plain scalar may also stand for the text it is spelled with.  In YAML a number is
written plainly and without a minus sign, and a text without a document gives the defaults.
-/
namespace TrafficRules

/-- How a kind of document spells what settings are made of. -/
structure SettingsSource (α : Type) where
  entries? : List String → α → Option (Entries α)
  count? : α → Option UInt64
  byte? : α → Option UInt8
  flag? : α → Option Bool
  text? : α → Option String
  optionalText? : α → Option (Option String)
  format? : α → Option LogFormat

def TableConfig.read {α : Type} (src : SettingsSource α) (v : α) : Option TableConfig := do
  let es ← src.entries? ["max_rules", "default_pcp"] v
  let maxRules ← es.withDefault "max_rules" ({} : TableConfig).maxRules src.count?
  let defaultPcp ← es.withDefault "default_pcp" ({} : TableConfig).defaultPcp src.byte?
  some { maxRules, defaultPcp }

def LogSettings.read {α : Type} (src : SettingsSource α) (v : α) : Option LogSettings := do
  let es ← src.entries? ["level", "format"] v
  let level ← es.withDefault "level" ({} : LogSettings).level src.text?
  let format ← es.withDefault "format" ({} : LogSettings).format src.format?
  some { level, format }

def readMetrics {α : Type} (src : SettingsSource α) (v : α) : Option Bool := do
  let es ← src.entries? ["enabled"] v
  es.withDefault "enabled" true src.flag?

def Settings.read {α : Type} (src : SettingsSource α) (v : α) : Option Settings := do
  let es ← src.entries? ["table", "logging", "metrics", "rules"] v
  let table ← es.withDefault "table" {} (TableConfig.read src)
  let logging ← es.withDefault "logging" {} (LogSettings.read src)
  let metricsEnabled ← es.withDefault "metrics" true (readMetrics src)
  let rules ← es.withDefault "rules" none src.optionalText?
  some { table, logging, metricsEnabled, rules }

/-! ## Data -/

def LogFormat.ofValue? (v : Value) : Option LogFormat :=
  v.named? (LogFormat.all.map (·.name)) LogFormat.ofName?

def Value.settingsSource : SettingsSource Value where
  entries? names v := v.fields? names 0
  count? := Value.u64?
  byte? := Value.u8?
  flag? := Value.bool?
  text? := Value.text?
  optionalText? := Value.orNull? Value.text?
  format? := LogFormat.ofValue?

def TableConfig.toValue (c : TableConfig) : Value :=
  .record [("max_rules", .u64 c.maxRules), ("default_pcp", .u8 c.defaultPcp)]

def TableConfig.ofValue? (v : Value) : Option TableConfig := TableConfig.read Value.settingsSource v

def Settings.toValue (s : Settings) : Value :=
  .record [("table", s.table.toValue),
    ("logging", .record [("level", .text s.logging.level), ("format", .text s.logging.format.name)]),
    ("metrics", .record [("enabled", .bool s.metricsEnabled)]), ("rules", .orNull .text s.rules)]

def Settings.ofValue? (v : Value) : Option Settings := Settings.read Value.settingsSource v

/-! ## YAML text -/

namespace Yaml.Document

def plain? (d : Document) (v : Node) : Option String :=
  match (d.target? v).map Node.bare with
  | some (.scalar s true) => some s
  | _ => none

def tag? (d : Document) (v : Node) : Option Tag := (d.target? v).bind Node.tag?

def scalar? (d : Document) (v : Node) : Option String := (d.scalar v).run' d.aliasLimit

/-- A text, or null where it is written plainly.  A scalar with the tag of null has to be null, one with another tag is
a text. -/
def textOrNull? (d : Document) (v : Node) : Option (Option String) :=
  match d.plain? v, d.tag? v with
  | some s, none => some (if isNull s then none else some s)
  | some s, some t =>
    if t.coreName ≠ "null" then some (some s) else if isNull s && s ≠ "" then some none else none
  | none, _ => (d.scalar? v).map some

/-- A log format by name, or by a tag of the document's own in front of nothing or of null. -/
def format? (d : Document) (v : Node) : Option LogFormat :=
  match (d.tag? v).bind Tag.own? with
  | some name => if (d.plain? v).any isNull then LogFormat.ofName? name else none
  | none => (d.scalar? v).bind LogFormat.ofName?

def natBelow? (d : Document) (bound : Nat) (v : Node) : Option Nat :=
  ((d.plain? v).bind (natural? ·.toList)).filter (· < bound)

def settingsSource (d : Document) : SettingsSource Node where
  entries? _ v := (d.entries v).run' d.aliasLimit
  count? v := (d.natBelow? UInt64.size v).map UInt64.ofNat
  byte? v := (d.natBelow? UInt8.size v).map UInt8.ofNat
  flag? v := (d.plain? v).bind bool?
  text? := d.scalar?
  optionalText? := d.textOrNull?
  format? := d.format?

end Yaml.Document

def Settings.parse (text : String) : Except ConfigError Settings :=
  match (Yaml.Document.parse? text).bind fun d => Settings.read d.settingsSource d.root with
  | some s => .ok s
  | none => .error (.invalidFormat "not a document of settings")

def Settings.ofFile (path : String) : FileResult → Except ConfigError Settings
  | .error f => .error (if f.isPresent then .loadFailed path f.message else .fileNotFound path)
  | .ok text => Settings.parse text

end TrafficRules
