import TrafficRules.CommandLine.Arguments
/-!
# Help — how the program is used

What a text of help says about the program or about a task: what it is for, how it is called, and what may be given, in
columns.  An option is labelled as it is given, with room for the letter of one that has none, and the option for the
path of the settings is shown with the value of the variable that stands in for it.
-/
namespace TrafficRules
namespace CommandLine

def OptionForm.value (f : OptionForm) : String :=
  if f.takesValue then " <" ++ String.ofList (f.name.toList.map Char.toUpper) ++ ">" else ""

/-- An option as it is given, with room for the letter of one that has none. -/
def OptionForm.label (f : OptionForm) : String :=
  let letter := match f.letter with
    | some c => String.ofList ['-', c, ',', ' ']
    | none => "    "
  letter ++ "--" ++ f.name ++ f.value

/-- The first line of a call: optional options in short, those that are required by name, and the place of what
follows. -/
def usageLine (name : String) (options : List OptionForm) (follows : String) : String :=
  let optional := options.any fun f => !f.required && f.question?.isNone
  let required := options.filter (·.required)
  "Usage: " ++ name ++ (if optional then " [OPTIONS]" else "")
    ++ String.join (required.map fun f => " --" ++ f.name ++ f.value) ++ follows

def columns (heading : String) (rows : List (String × String)) : String :=
  let width := (rows.map (·.1.length)).foldl max 0
  let row (label description : String) : String :=
    "  " ++ String.ofList (label.toList.rightpad (width + 2) ' ') ++ description ++ "\n"
  heading ++ ":\n" ++ String.join (rows.map fun r => row r.1 r.2)

def helpDescription : String := "Print this message or the help of the given subcommand(s)"

def describedForms (configVariable : Option String) : List OptionForm :=
  programForms.map fun f =>
    if f.name = "config" then
      { f with description := f.description ++ " [env: SPM_CONFIG=" ++ configVariable.getD "" ++ "]" }
    else f

def optionColumns (options : List OptionForm) : String :=
  columns "Options" (options.map fun f => (f.label, f.description))

def programHelp (configVariable : Option String) : String :=
  "Service prioritization rule engine tools\n\n" ++ usageLine "spm" programForms " <COMMAND>" ++ "\n\n"
    ++ columns "Commands" (taskForms.map (fun t => (t.name, t.description)) ++ [("help", helpDescription)]) ++ "\n"
    ++ optionColumns (describedForms configVariable)

def TaskForm.help (t : TaskForm) : String :=
  t.description ++ "\n\n" ++ usageLine ("spm " ++ t.name) t.options "" ++ "\n\n" ++ optionColumns t.options

def helpHelp : String :=
  helpDescription ++ "\n\n" ++ usageLine "spm help" [] " [COMMAND]..." ++ "\n\n"
    ++ columns "Arguments" [("[COMMAND]...", "Print help for the subcommand(s)")]

def helpText (configVariable : Option String) : Option String → String
  | none => programHelp configVariable
  | some name => ((taskForm? name).map TaskForm.help).getD helpHelp

def versionText (task : Option String) : String := "spm" ++ (task.elim "" ("-" ++ ·)) ++ " 0.2.0\n"

def Question.answer (configVariable task : Option String) : Question → String
  | .version => versionText task
  | .help => helpText configVariable task

end CommandLine
end TrafficRules
