import TrafficRules.Document.Setting.File
import TrafficRules.Document.Setting.Path
/-!
# Layer — settings from a file with the environment over it

Every key of the file and every variable names a path, and what it says is put there, one after the other.  Variables
for settings start with a prefix in any case; the key such a one is for is the rest of its name in lowercase, with
points for double underscores.  A path without a file may lack its ending: then the endings are tried in turn, and
`stem?` is the path they are tried on.
-/
namespace TrafficRules
namespace Setting

/-! ## The environment -/

def ofVariable (s : String) : Setting :=
  if lower s = "true" then .bool true
  else if lower s = "false" then .bool false
  else if let some n := int? 10 s.toList then .int n
  else if let some x := real? s.toList then .real x
  else .text s

def variablePrefix : String := "spm__"

/-- The key a variable is for: its name in lowercase behind the prefix, with points for double underscores. -/
def keyOf? (name : String) : Option String :=
  let cs := (lower name).toList
  if variablePrefix.toList.isPrefixOf cs then
    some (".".intercalate ((String.ofList (cs.drop variablePrefix.length)).splitOn "__"))
  else none

def variableNames : List String :=
  ["SPM__TABLE__MAX_RULES", "SPM__TABLE__DEFAULT_PCP", "SPM__LOGGING__LEVEL", "SPM__LOGGING__FORMAT",
   "SPM__METRICS__ENABLED", "SPM__RULES"]

def ofEnvironment (environment : List (String × String)) : List (String × Setting) :=
  environment.filterMap fun (name, value) => (keyOf? name).map fun key => (key, ofVariable value)

end Setting

def Settings.layered (kind : Setting.FileKind) (path text : String) (environment : List (String × String)) :
    Except ConfigError Settings :=
  match Setting.ofFile? kind text with
  | none => .error (.loadFailed path "not a document of settings")
  | some entries =>
    let layers := (Setting.table []).overlay entries |>.overlay (Setting.ofEnvironment environment)
    match Settings.read Setting.source layers with
    | some s => .ok s
    | none => .error (.invalidFormat "a setting has the wrong form")

/-- A path up to its last name, which has to be one. -/
def stem? (path : String) : Option String :=
  let cs := trimmed path.toList.reverse
  let name := cs.takeWhile (· ≠ '/')
  if name.isEmpty || name = ['.'] || name = ['.', '.'] then none else some (String.ofList cs.reverse)
where
  trimmed : List Char → List Char
    | '/' :: cs => trimmed cs
    | '.' :: '/' :: cs => trimmed cs
    | cs => cs

/-- Finds the file and reads layered settings from it.  A path without a file may lack its ending. -/
def Settings.loadLayered {m : Type → Type} [Monad m] (contents : String → m FileResult) (path : String)
    (environment : List (String × String)) : m (Except ConfigError Settings) := do
  match ← contents path with
  | .ok text =>
    match (extension path).bind Setting.FileKind.ofEnding? with
    | some kind => return Settings.layered kind path text environment
    | none => return .error (.loadFailed path "the file has no ending of a known format")
  | .error _ =>
    match stem? path with
    | some stem => tryEndings stem Setting.FileKind.endings
    | none => return .error (.loadFailed path "there is no such file")
where
  tryEndings (stem : String) : List (String × Setting.FileKind) → m (Except ConfigError Settings)
    | [] => return .error (.loadFailed path "there is no such file")
    | (ending, kind) :: more => do
      match ← contents (stem ++ "." ++ ending) with
      | .ok text => return Settings.layered kind path text environment
      | .error _ => tryEndings stem more

end TrafficRules
