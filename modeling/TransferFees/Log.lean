import TransferFees.FeeState

/-!
# The log

Every entry has a level, the part of the program that wrote it, and a message. The entries of the
service are events: they carry the values that were stored, so that the stored state can be built
again from them (`Event.replay`). All other entries are notes. The traces of the stack that follow
some entries of the level of errors are left out.
-/

namespace TransferFees

/-- How serious an entry is. -/
inductive Level where
  /-- All went well. -/
  | info
  /-- A request was turned down. -/
  | warning
  /-- Something is out of order. -/
  | error
  deriving DecidableEq, Repr

/-- The name of a level. -/
def Level.name : Level → String
  | .info => "INFO"
  | .warning => "WARNING"
  | .error => "ERROR"

/-- The part of the program that wrote an entry. -/
inductive Source where
  /-- Start-up and shut-down. -/
  | server
  /-- The routes of the HTTP interface. -/
  | routes
  /-- The service. -/
  | service
  /-- Storage. -/
  | storage
  /-- The setup command. -/
  | setup
  deriving DecidableEq, Repr

/-- A change that has been stored. -/
inductive Event where
  /-- A fee state was created. -/
  | initialized (state : FeeState)
  /-- The percent was changed. -/
  | percentSet (value : Int) (caller : String)
  /-- A token was added. -/
  | tokenAdded (id : String)
  /-- A token was removed. -/
  | tokenRemoved (id : String)
  deriving DecidableEq

/-- A list of ids between brackets, each in quotes. Ids hold neither quotes nor backslashes. -/
def quotedList (ids : List String) : String :=
  "[" ++ ", ".intercalate (ids.map fun id => "'" ++ id ++ "'") ++ "]"

/-- The message of an event. -/
def Event.message : Event → String
  | .initialized state =>
    "Initialized fees calculator: owner=" ++ state.owner ++ ", percent=" ++
      Numeral.signedText state.percent ++ ", tokens=" ++ quotedList state.tokens.toList
  | .percentSet value caller =>
    "Fee percent set to " ++ Numeral.signedText value ++ " by " ++ caller
  | .tokenAdded id => "Added supported token: " ++ id
  | .tokenRemoved id => "Removed supported token: " ++ id

/-- The tables after the change that an event tells of. -/
def Event.replay (tables : Tables) : Event → Tables
  | .initialized state => ⟨some ⟨state.owner, state.percent⟩, state.tokens⟩
  | .percentSet value _ => { tables with fees := tables.fees.map ({ · with percent := value }) }
  | .tokenAdded id => { tables with tokens := tables.tokens.insert id }
  | .tokenRemoved id => { tables with tokens := tables.tokens.erase id }

/-- An entry of the log. -/
inductive LogEntry where
  /-- The service has stored a change. -/
  | event (e : Event)
  /-- Anything else. -/
  | note (level : Level) (source : Source) (message : String)
  deriving DecidableEq

namespace LogEntry

/-- How serious the entry is. -/
def level : LogEntry → Level
  | .event _ => .info
  | .note level _ _ => level

/-- Who wrote the entry. -/
def source : LogEntry → Source
  | .event _ => .service
  | .note _ source _ => source

/-- The text of the entry. -/
def message : LogEntry → String
  | .event e => e.message
  | .note _ _ message => message

end LogEntry

end TransferFees
