import TrafficRules.Document.Ini
import TrafficRules.Document.Json.Read
import TrafficRules.Document.Json.Relaxed
import TrafficRules.Document.Setting
import TrafficRules.Document.Toml
import TrafficRules.Document.Yaml.Node
/-!
# File — what files say about settings

A file's ending tells how it is written (`endings`).  In YAML a plain scalar may be a number or a word for one, integers
also in base sixteen or eight behind a mark, but a few spellings of infinity are refused, and so is a key given twice in
a mapping; keys are texts or integers there.  A byte order mark in front is left out, and a YAML file without a document
holds an empty table.
-/
namespace TrafficRules
namespace Setting

/-- An integer as YAML files spell it: in base sixteen or eight behind a mark, else in base ten. -/
def fileInt? (cs : List Char) : Option Int :=
  let marked := match cs with
    | '0' :: 'x' :: digits => int? 16 digits
    | '0' :: 'o' :: digits => int? 8 digits
    | '+' :: digits => int? 10 digits
    | _ => none
  marked.or (int? 10 cs)

def isUnbounded (s : String) : Bool :=
  [".inf", ".Inf", ".INF", "+.inf", "+.Inf", "+.INF", "-.inf", "-.Inf", "-.INF", ".nan", ".NAN"].contains s

def ofScalar? (s : String) : Option Setting :=
  if ["", "~", "null"].contains s then some .absent
  else if s = "true" then some (.bool true)
  else if s = "false" then some (.bool false)
  else if let some n := fileInt? s.toList then some (.int n)
  else if isUnbounded s then none
  else if let some x := real? s.toList then some (.real x)
  else some (.text s)

/-- What a plain scalar with a tag says.  A tag that does not fit the spelling makes it say nothing. -/
def ofTagged? (t : Yaml.Tag) (s : String) : Option Setting :=
  if t.handle ≠ Yaml.corePrefix then some (.text s)
  else
    match t.suffix with
    | "bool" => some (if s = "true" then .bool true else if s = "false" then .bool false else .absent)
    | "int" => some ((int? 10 s.toList).elim .absent .int)
    | "float" => if isUnbounded s then none else some ((real? s.toList).elim .absent .real)
    | "null" => some .absent
    | _ => some (.text s)

inductive FileKey where
  | text (s : String)
  | int (n : Int)
  deriving DecidableEq, Repr

namespace FileKey

def name : FileKey → String
  | .text s => s
  | .int n => toString n

def ofSetting? : Setting → Option FileKey
  | .text s => some (.text s)
  | .int n => some (.int n)
  | _ => none

end FileKey

mutual

def ofNode? : Yaml.Node → Option Setting
  | .scalar s plain => if plain then ofScalar? s else some (.text s)
  | .list items => (ofNodes? items).map .list
  | .mapping entries => do
    let entries ← ofEntries? entries
    if (entries.map (·.1)).Nodup then some (.table (entries.map fun e => (e.1.name, e.2))) else none
  | .alias _ => none
  | .tagged t (.scalar s true) => ofTagged? t s
  | .tagged _ v => ofNode? v

def ofNodes? : List Yaml.Node → Option (List Setting)
  | [] => some []
  | v :: vs => do
    let v ← ofNode? v
    let vs ← ofNodes? vs
    some (v :: vs)

def ofEntries? : List (Yaml.Node × Yaml.Node) → Option (List (FileKey × Setting))
  | [] => some []
  | (k, v) :: es => do
    let k ← FileKey.ofSetting? (← ofNode? k)
    let v ← ofNode? v
    let es ← ofEntries? es
    some ((k, v) :: es)

end

mutual

/-- What a JSON value says.  An integer beyond 64 bits with a sign is a number with a fraction like any other. -/
def ofJson : Value → Setting
  | .null => .absent
  | .bool b => .bool b
  | .int n => if n < (twoTo 63 : Int) then .int n else .real (Float.ofScientific n.toNat false 0)
  | .foreign spelling => .real ((Json.Number.ofSpelling? spelling).getD 0.0)
  | .text s => .text s
  | .list vs => .list (ofJsonItems vs)
  | .record fs => .table (ofJsonFields fs)
  | .mapping _ => .table []

def ofJsonItems : List Value → List Setting
  | [] => []
  | v :: vs => ofJson v :: ofJsonItems vs

def ofJsonFields : List (String × Value) → List (String × Setting)
  | [] => []
  | (name, v) :: fs => (name, ofJson v) :: ofJsonFields fs

end

inductive FileKind where
  | toml
  | json
  | yaml
  | ini
  | relaxedJson
  deriving DecidableEq, Repr

namespace FileKind

def endings : List (String × FileKind) :=
  [("toml", .toml), ("json", .json), ("yaml", .yaml), ("yml", .yaml), ("ini", .ini), ("json5", .relaxedJson)]

def ofEnding? (ending : String) : Option FileKind := endings.lookup ending

end FileKind

def tableOf? : Setting → Option (List (String × Setting))
  | .table entries => some entries
  | _ => none

def ofFile? (kind : FileKind) (text : String) : Option (List (String × Setting)) := do
  let text := match text.toList with
    | '\uFEFF' :: cs => String.ofList cs
    | _ => text
  match kind with
  | .toml => Toml.parse? text
  | .ini => Ini.parse? text
  | .relaxedJson => (Json.Relaxed.parse? text).bind tableOf?
  | .json => (Json.parse? text).bind fun v => tableOf? (ofJson v)
  | .yaml =>
    match ← Yaml.Document.parseStrict? text with
    | none => some []
    | some d => (ofNode? d.root).bind tableOf?

end Setting
end TrafficRules
