import TransferFees.Setup

/-!
# The command line

Runs the setup command on storage in memory, with settings from the environment. The log goes to
standard error, and the command ends with the exit code of the run.
-/

namespace TransferFees

/-- How the command is called. -/
def usage : String := "usage: [-h] [--owner OWNER] [tokens ...]"

/-- The variables that settings are read from, with names in capital and in small letters. -/
def readEnvironment : IO (List (String × String)) := do
  let names := ["database_url", "app_name", "app_version", "debug", "default_fee_percent"]
  let mut env := []
  for name in names.map String.toUpper ++ names do
    match ← IO.getEnv name with
    | some value => env := env ++ [(name, value)]
    | none => pure ()
  return env

/-- Runs the command and writes its log. -/
def runSetup (settings : Settings) (argv : List String) : IO UInt32 := do
  if let .error _ := Setup.Arguments.parse argv then
    IO.eprintln usage
  let report := Setup.run settings argv .bare
  for entry in report.log do
    IO.eprintln (entry.level.name ++ ": " ++ entry.message)
  return UInt32.ofNat report.exitCode

end TransferFees

open TransferFees in
/-- Reads the settings and runs the command. -/
def main (argv : List String) : IO UInt32 := do
  match Settings.ofEnvironment (← readEnvironment) with
  | .ok settings => runSetup settings argv
  | .error issues =>
    for issue in issues do
      IO.eprintln issue.problem.message
    return 1
