import TransferFees.Service

/-!
# Sessions

A session runs several steps on one draft of storage. Later steps see what earlier ones wrote. The
first step that fails ends the session. The draft is kept if no step failed and the session is not
called off; the log is kept in any case.
-/

namespace TransferFees

/-- One thing to do in a session: an operation of the service, or one on the stored rows. -/
inductive Step where
  /-- Create the fee state by way of the service. -/
  | establish (caller : String) (tokens : List String) (standard : Option String)
  /-- Ask for the fee of a transfer. -/
  | fee (t : Transfer)
  /-- Set the percent by way of the service. -/
  | setPercent (caller text : String)
  /-- Ask for the text of the percent. -/
  | percentText
  /-- Ask for the supported tokens by way of the service. -/
  | listTokens
  /-- Add a token by way of the service. -/
  | addToken (id : String)
  /-- Remove a token by way of the service. -/
  | removeToken (id : String)
  /-- Load the fee state, which has to be there. -/
  | loadState
  /-- Read the fee state, if there is one. -/
  | readState
  /-- Write a fee state for the first time. -/
  | createState (owner : String) (percent : Int) (tokens : List String)
  /-- Write a percent, whatever it is. -/
  | writePercent (value : Int)
  /-- Read the tokens. -/
  | readTokens
  /-- Write a token, whatever it is. -/
  | writeToken (id : Option String)
  /-- Delete a token. -/
  | deleteToken (id : String)

/-- What a step gives. -/
inductive Answer where
  /-- A fee state. -/
  | state (s : FeeState)
  /-- A fee state or none. -/
  | stateIfAny (s : Option FeeState)
  /-- A fee. -/
  | fee (value : Int)
  /-- A percent as a text. -/
  | text (s : String)
  /-- Tokens in ascending order. -/
  | tokens (ids : List String)
  /-- Nothing to tell. -/
  | done

/-- The unit of work that a step is. -/
def Step.work : Step → Work Answer
  | .establish caller tokens standard => return .state (← Service.establish caller tokens standard)
  | .fee t => return .fee (← Service.fee t)
  | .setPercent caller text => return .text (← Service.setPercent caller text)
  | .percentText => return .text (← Service.percentText)
  | .listTokens => return .tokens (← Service.listTokens)
  | .addToken id => return .tokens (← Service.addToken id)
  | .removeToken id => return .tokens (← Service.removeToken id)
  | .loadState => return .state (← Service.loadState)
  | .readState => return .stateIfAny (← Ledger.load)
  | .createState owner percent tokens => do
    let state ← Work.ofExcept (FeeState.new owner tokens (some percent))
    return .state (← Ledger.create state)
  | .writePercent value => do
    Ledger.setPercent value
    return .done
  | .readTokens => return .tokens (← Ledger.tokens).toList
  | .writeToken id => do
    Ledger.addToken id
    return .done
  | .deleteToken id => do
    Ledger.removeToken id
    return .done

/-- A step in a session of its own. -/
def Step.run (step : Step) (storage : Storage) : Work.Outcome Answer := step.work.commit storage

namespace Session

/-- What a session leaves behind. -/
structure Report where
  /-- The results of the steps that were run. -/
  results : List (Except FeeError Answer)
  /-- Whether the draft was kept. -/
  committed : Bool
  /-- What is stored afterwards. -/
  storage : Storage
  /-- The entries that were written. -/
  log : List LogEntry

/-- Runs steps on a draft up to the first that fails. -/
def runSteps : List Step → Draft → List (Except FeeError Answer) × Draft
  | [], d => ([], d)
  | step :: rest, d =>
    match step.work d with
    | (.ok a, d) =>
      let (results, d) := runSteps rest d
      (.ok a :: results, d)
    | (.error e, d) => ([.error e], d)

/-- Whether a result is a success. -/
def succeeded : Except FeeError Answer → Bool
  | .ok _ => true
  | .error _ => false

/-- Runs a session; `calledOff` drops the draft even if every step succeeds. -/
def run (steps : List Step) (calledOff : Bool) (storage : Storage) : Report :=
  let (results, d) := runSteps steps ⟨storage, []⟩
  let committed := results.all succeeded && !calledOff
  ⟨results, committed, if committed then d.storage else storage, d.log⟩

end Session

end TransferFees
