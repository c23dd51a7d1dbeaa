import TrafficRules.Classifier
/-!
# Arguments — what a command line asks for

Options for the whole program come first, then the task and the task's own options.  An option's value follows it or is
part of it, and no option is given twice.  A flag's value is empty; of the values, a path may not be empty and a family
needs its name.  Questions are options too, which the program and every task have, and the word for help asks about the
program, about the task named behind it or about that word itself (`help?`).

Arguments are judged in order: a fault in front of a question wins, except that a value which follows its option is
judged only when the next option of the same place comes or all arguments are read.
-/
namespace TrafficRules
namespace CommandLine

inductive Task where
  | check
  | dump (json : Bool) (classifier : Option Classifier)
  | classify (input : String) (stats : Bool)
  deriving DecidableEq, Repr

inductive Question where
  | version
  | help
  deriving DecidableEq, Repr

inductive Invocation where
  | answer (question : Question) (task : Option String)
  | perform (config rules : Option String) (task : Task)
  deriving DecidableEq, Repr

inductive OptionKind where
  | flag
  | path
  | family
  | asks (question : Question)
  deriving DecidableEq, Repr

/-- An option by its letter and its name. -/
structure OptionForm where
  letter : Option Char := none
  name : String
  kind : OptionKind
  description : String
  required : Bool := false
  deriving DecidableEq, Repr

namespace OptionForm

def takesValue (f : OptionForm) : Bool := f.kind = .path || f.kind = .family

def question? (f : OptionForm) : Option Question :=
  match f.kind with
  | .asks q => some q
  | _ => none

def accepts (f : OptionForm) (value : String) : Bool :=
  match f.kind with
  | .path => value ≠ ""
  | .family => (Classifier.parse? value).isSome
  | _ => true

end OptionForm

def questionForms : List OptionForm :=
  [⟨some 'h', "help", .asks .help, "Print help", false⟩, ⟨some 'V', "version", .asks .version, "Print version", false⟩]

def programForms : List OptionForm :=
  [⟨some 'c', "config", .path, "Path to the engine configuration file", false⟩,
   ⟨some 'r', "rules", .path, "Rule file, overrides \x60rules\x60 from the configuration", false⟩] ++ questionForms

structure TaskForm where
  name : String
  description : String
  options : List OptionForm
  deriving DecidableEq, Repr

def taskForms : List TaskForm :=
  [⟨"check", "Validate the rule file and report rule counts per family", questionForms⟩,
   ⟨"dump", "Print the rules in evaluation order",
    [⟨none, "json", .flag, "Emit JSON instead of one line per rule", false⟩,
     ⟨none, "classifier", .family, "Only list rules of this family", false⟩] ++ questionForms⟩,
   ⟨"classify", "Classify each request of a YAML list",
    [⟨some 'i', "input", .path, "YAML file holding a list of requests", true⟩,
     ⟨none, "stats", .flag, "Print lookup counters to stderr when done", false⟩] ++ questionForms⟩]

def taskForm? (name : String) : Option TaskForm := taskForms.find? (·.name == name)

def isOption (argument : String) : Bool :=
  match argument.toList with
  | '-' :: _ :: _ => true
  | _ => false

/-- The option an argument gives, and the value that is part of it.  A letter that takes no value ignores what stands
behind it. -/
def option? (forms : List OptionForm) (argument : String) : Option (OptionForm × Option String) :=
  match argument.toList with
  | '-' :: '-' :: cs =>
    let name := cs.takeWhile (· ≠ '=')
    let value := match cs.dropWhile (· ≠ '=') with
      | [] => none
      | _ :: value => some (String.ofList value)
    (forms.find? (·.name == String.ofList name)).map fun f => (f, value)
  | '-' :: letter :: cs =>
    let value := match cs with
      | [] => none
      | '=' :: value => some (String.ofList value)
      | value => some (String.ofList value)
    (forms.find? (·.letter == some letter)).map fun f => (f, if f.takesValue then value else none)
  | _ => none

abbrev Given := List (String × String)

namespace Given

def has (g : Given) (name : String) : Bool := g.any (·.1 == name)

def get? (g : Given) (name : String) : Option String := List.lookup name g

def accept? (g : Given) (f : OptionForm) (value : String) : Option Given :=
  if g.has f.name || !f.accepts value then none else some ((f.name, value) :: g)

end Given

/-- The options read so far.  A value that is an argument of its own waits until the next option or the end. -/
structure Options where
  given : Given := []
  waiting : Option (OptionForm × String) := none

def Options.settled? (o : Options) : Option Given :=
  match o.waiting with
  | none => some o.given
  | some (f, value) => o.given.accept? f value

inductive Ending where
  | question (q : Question)
  | arguments (options : Options) (rest : List String)

/-- Reads options up to the first argument that is none.  Nothing may follow two dashes. -/
def options? (forms : List OptionForm) : Options → List String → Option Ending
  | o, [] => some (.arguments o [])
  | o, a :: rest =>
    if a = "--" then if rest.isEmpty then some (.arguments o []) else none
    else if !isOption a then some (.arguments o (a :: rest))
    else
      match option? forms a, o.settled? with
      | some (f, value), some given =>
        if f.takesValue then
          match value with
          | some v =>
            match given.accept? f v with
            | some given => options? forms { given } rest
            | none => none
          | none =>
            match rest with
            | v :: more => if isOption v then none else options? forms { given, waiting := some (f, v) } more
            | [] => none
        else if value.isSome then none
        else
          match f.question?, given.accept? f "" with
          | some q, _ => some (.question q)
          | none, some given => options? forms { given } rest
          | none, none => none
      | _, _ => none

def taskOf? (name : String) (g : Given) : Option Task :=
  match name with
  | "check" => some .check
  | "dump" => some (.dump (g.has "json") ((g.get? "classifier").bind Classifier.parse?))
  | "classify" => (g.get? "input").map fun input => .classify input (g.has "stats")
  | _ => none

/-- The task of a name with its options behind those of the program.  The path of the settings is that of the
variable if the options give none. -/
def perform? (configVariable : Option String) (program own : Options) (name : String) : Option Invocation := do
  let given ← program.settled?
  let task ← taskOf? name (← own.settled?)
  let config := (given.get? "config").or configVariable
  if config = some "" then none else some (.perform config (given.get? "rules") task)

/-- What the words behind the word for help ask: about the program, about a task or about that word. -/
def help? : List String → Option Invocation
  | [] => some (.answer .help none)
  | [name] => if name = "help" || (taskForm? name).isSome then some (.answer .help (some name)) else none
  | _ => none

def parse? (configVariable : Option String) (arguments : List String) : Option Invocation := do
  match ← options? programForms {} arguments with
  | .question q => some (.answer q none)
  | .arguments _ [] => none
  | .arguments _ ("help" :: words) => help? words
  | .arguments program (name :: rest) =>
    match ← options? (← taskForm? name).options {} rest with
    | .question q => some (.answer q (some name))
    | .arguments own [] => perform? configVariable program own name
    | .arguments _ _ => none

end CommandLine
end TrafficRules
