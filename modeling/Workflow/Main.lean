import Workflow.CommandLine.Session

/-!
The program: it performs the command that its arguments call. Waiting takes no time here, models
answer at once, and a database lasts as long as the program.
-/

namespace Workflow.Main

/-- The variables that are set. -/
def readVariables (names : List String) : IO (Table String String) :=
  names.filterMapM fun name => do
    return (← IO.getEnv name).map fun value => (name, value)

/-- The texts that can be read. -/
def readFiles (paths : List String) : IO (Table String String) :=
  paths.filterMapM fun (path : String) => do
    try
      let text ← IO.FS.readFile path
      return some (path, text)
    catch _ => return none

/-- What a command may look at. -/
def readHost (command : Command) : IO Host := do
  let environment ← readVariables Settings.variableNames
  let files ← readFiles (Session.filesFor { environment } command)
  match command with
  | .run path _ | .validate path =>
    let secrets ← readVariables (Session.secretVariables { host := { files, environment } } path)
    return { files, environment := environment ++ secrets }
  | _ => return { files, environment }

def report (output : CommandOutput) : IO UInt32 := do
  IO.print output.text
  match output.conclusion with
  | .fault cause => IO.eprintln cause.describe
  | _ => pure ()
  return output.conclusion.exitCode.toUInt32

end Workflow.Main

open Workflow in
def main (arguments : List String) : IO UInt32 := do
  match Command.parse? arguments with
  | none => Main.report (.misuse Session.usage)
  | some command =>
    let host ← Main.readHost command
    Main.report (Session.perform { host } command).1
