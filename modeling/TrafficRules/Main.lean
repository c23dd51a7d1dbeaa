import TrafficRules.CommandLine
/-!
# Main — the program

The one place where files are read and environment variables asked for.  Faults of the operating system are told apart by
their codes, and of the variables that the program knows those that are set are handed on.
-/
namespace TrafficRules
namespace CommandLine

def faultOf (code : UInt32) (reason : String) : FileFault :=
  if code = 20 then .notDirectory else if code = 21 then .isDirectory else .failed reason

def readFile (path : String) : IO FileResult := do
  try return .ok (← IO.FS.readFile path)
  catch
    | .noFileOrDirectory .. => return .error .missing
    | .inappropriateType _ code reason => return .error (faultOf code reason)
    | e => return .error (.failed (toString e))

/-- Those of the named environment variables that are set. -/
def environmentOf : List String → IO (List (String × String))
  | [] => return []
  | name :: names => do
    let value ← IO.getEnv name
    return (value.map (name, ·)).toList ++ (← environmentOf names)

end CommandLine
end TrafficRules

def main (arguments : List String) : IO UInt32 := do
  let environment ← TrafficRules.CommandLine.environmentOf ("SPM_CONFIG" :: TrafficRules.Setting.variableNames)
  let report ← TrafficRules.CommandLine.run ⟨TrafficRules.CommandLine.readFile, environment⟩ arguments
  (← IO.getStdout).putStr report.output
  (← IO.getStderr).putStr report.errors
  return report.exitCode.toUInt32
