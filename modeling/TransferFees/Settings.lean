import TransferFees.Validation

/-!
# Settings

What can be set from outside, by environment variables. The names of the variables are read without
regard to case; of two that differ in case alone the later one counts. A setting without a variable
has its standard value.
-/

namespace TransferFees

/-- What can be set from outside. -/
structure Settings where
  /-- Where storage is. -/
  databaseUrl : String := "sqlite+aiosqlite:///./forward_fees.db"
  /-- The name of the program. -/
  appName : String := "Forward Fees"
  /-- The version of the program. -/
  appVersion : String := "1.0.0"
  /-- Whether more is logged. -/
  debug : Bool := false
  /-- The text of the percent that a new fee state gets. -/
  standardPercent : String := "5"

namespace Settings

/-- The truth value that a text stands for, in letters of either case. -/
def truth? (s : String) : Option Bool :=
  let word := s.toLower
  if ["1", "true", "t", "yes", "y", "on"].contains word then some true
  else if ["0", "false", "f", "no", "n", "off"].contains word then some false
  else none

/-- The value of the last variable with the given name, which is in small letters. -/
def valueOf? (name : String) : List (String × String) → Option String
  | [] => none
  | (key, value) :: rest =>
    match valueOf? name rest with
    | some later => some later
    | none => if key.toLower = name then some value else none

/-- The settings that the variables of an environment give. -/
def ofEnvironment (env : List (String × String)) : Checked Settings := do
  let standard : Settings := {}
  let debug ← match valueOf? "debug" env with
    | none => pure standard.debug
    | some s =>
      match truth? s with
      | some b => pure b
      | none => Checked.inside (.field "debug") (Checked.problem .notTruthText (.text s))
  return {
    databaseUrl := (valueOf? "database_url" env).getD standard.databaseUrl
    appName := (valueOf? "app_name" env).getD standard.appName
    appVersion := (valueOf? "app_version" env).getD standard.appVersion
    debug := debug
    standardPercent := (valueOf? "default_fee_percent" env).getD standard.standardPercent }

/-- The settings as JSON. -/
def toJson (s : Settings) : Json :=
  .object [("database_url", .text s.databaseUrl), ("app_name", .text s.appName),
    ("app_version", .text s.appVersion), ("debug", .bool s.debug),
    ("default_fee_percent", .text s.standardPercent)]

end Settings

end TransferFees
