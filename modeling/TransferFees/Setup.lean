import TransferFees.Service
import TransferFees.Settings
import TransferFees.Setup.Arguments

/-!
# The setup command

Creates the tables that are missing and, if an owner is named, the fee state. The command may be
run again: a fee state that is there already is only warned about. Every other error ends the
command with exit code 1.
-/

namespace TransferFees

/-- What creating the tables is logged as. -/
def tablesCreated : LogEntry :=
  .note .info .storage ("Created tables: " ++ Table.fees.name ++ ", " ++ Table.tokens.name)

namespace Setup

/-- What a run of the command leaves behind. -/
structure Report where
  /-- The exit code. -/
  exitCode : Nat
  /-- What is stored afterwards. -/
  storage : Storage
  /-- The entries that were written. -/
  log : List LogEntry

/-- The exit code of a command line that gives no arguments. -/
def Refused.exitCode : Refused → Nat
  | .help => 0
  | .usage => 2

/-- What an error that ends the command is logged as. -/
def failed (message : String) : LogEntry :=
  .note .error .setup ("Error initializing database: " ++ message)

/-- Creates the fee state and logs it. -/
def establish (settings : Settings) (owner : String) (tokens : List String) : Work Unit := do
  let state ← Service.establish owner tokens (some settings.standardPercent)
  Work.record (.note .info .setup
    ("Fee state created: owner=" ++ state.owner ++ ", tokens=" ++ quotedList state.tokens.toList))

/-- Runs the command with arguments. -/
def runWith (settings : Settings) (arguments : Arguments) (storage : Storage) : Report :=
  match storage.createTables with
  | .error fault => ⟨1, storage, [failed fault.message]⟩
  | .ok storage =>
    let opening := [tablesCreated, .note .info .setup "Database initialized successfully"]
    match arguments.owner with
    | .absent => ⟨0, storage, opening⟩
    | .withoutValue => ⟨0, storage, opening⟩
    | .named owner =>
      if owner = "" then ⟨0, storage, opening⟩
      else
        let outcome := (establish settings owner arguments.tokens).commit storage
        let log := opening ++ outcome.log
        match outcome.result with
        | .ok () => ⟨0, outcome.storage, log⟩
        | .error .alreadyInitialized =>
          ⟨0, outcome.storage,
            log ++ [.note .warning .setup FeeError.alreadyInitialized.message]⟩
        | .error e => ⟨1, outcome.storage, log ++ [failed e.message]⟩

/-- Runs the command with a command line. -/
def run (settings : Settings) (argv : List String) (storage : Storage) : Report :=
  match Arguments.parse argv with
  | .ok arguments => runWith settings arguments storage
  | .error refused => ⟨refused.exitCode, storage, []⟩

end Setup

end TransferFees
