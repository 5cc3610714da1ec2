import TransferFees.Setup

/-!
# Starting and stopping the server

Before it serves requests the server creates the tables that are missing. If that fails it does not
start.
-/

namespace TransferFees.Server

/-- What starting the server leaves behind. -/
structure Start where
  /-- Whether the server serves requests, or why not. -/
  result : Except StorageFault Unit
  /-- What is stored afterwards. -/
  storage : Storage
  /-- The entries that were written. -/
  log : List LogEntry

/-- Starts the server. -/
def start (settings : Settings) (storage : Storage) : Start :=
  let opening : LogEntry :=
    .note .info .server ("Starting " ++ settings.appName ++ " " ++ settings.appVersion ++ "...")
  match storage.createTables with
  | .ok storage =>
    ⟨.ok (), storage,
      [opening, tablesCreated, .note .info .server "Database initialized successfully"]⟩
  | .error fault =>
    ⟨.error fault, storage,
      [opening, .note .error .server ("Failed to initialize database: " ++ fault.message)]⟩

/-- The entries that are written when the server stops. -/
def stop : List LogEntry := [.note .info .server "Shutting down application..."]

end TransferFees.Server
