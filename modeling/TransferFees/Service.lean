import TransferFees.Ledger

/-!
# The service

What the service does with a stored fee state: four changes and three questions.

A change has two halves. `Change.plan` looks at the fee state that was loaded and decides, without
touching storage, whether the change may be made; what it settles on is an `Event`.
`Plan.carryOut` writes what the event tells of. In between, storage may have been changed by someone
else, so writing can still fail.
-/

namespace TransferFees

/-- A change to the stored fee state. -/
inductive Change where
  /-- Create the fee state. The percent is the one that a text stands for, if one is given. -/
  | establish (caller : String) (tokens : List String) (standard : Option String)
  /-- Set the percent. -/
  | setPercent (caller text : String)
  /-- Add a token. -/
  | addToken (id : String)
  /-- Remove a token. -/
  | removeToken (id : String)

/-- What a change that may be made comes to. -/
structure Plan where
  /-- What has to be stored. -/
  event : Event
  /-- The fee state after the change, as far as the loaded state tells. -/
  next : FeeState

/-- The loaded state, for an operation that needs one. -/
def needState : Option FeeState → Except FeeError FeeState
  | some state => .ok state
  | none => .error .notInitialized

/-- The percent that the text of the standard percent stands for, if there is such a text. -/
def parseStandard : Option String → Except FeeError (Option Int)
  | none => .ok none
  | some text =>
    match Percent.parse text with
    | .ok percent => .ok (some percent)
    | .error reason => .error (.standardPercent reason)

/-- Decides on a change, given the loaded state. -/
def Change.plan (seen : Option FeeState) : Change → Except FeeError Plan
  | .establish caller tokens standard => do
    if seen.isSome then
      throw .alreadyInitialized
    let percent ← parseStandard standard
    let state ← FeeState.new caller tokens percent
    return ⟨.initialized state, state⟩
  | .setPercent caller text => do
    let state ← needState seen
    let next ← state.setPercent caller text
    return ⟨.percentSet next.percent caller, next⟩
  | .addToken id => do
    let state ← needState seen
    let next ← state.addToken id
    return ⟨.tokenAdded id, next⟩
  | .removeToken id => do
    let state ← needState seen
    let next ← state.removeToken id
    return ⟨.tokenRemoved id, next⟩

/-- Stores what a plan settled on, records it, and gives the fee state after it. A fee state that
was created is given, and recorded, as it was read back. -/
def Plan.carryOut (plan : Plan) : Work FeeState := do
  match plan.event with
  | .initialized state =>
    let stored ← Ledger.create state
    Work.record (.event (.initialized stored))
    return stored
  | .percentSet value caller =>
    Ledger.setPercent value
    Work.record (.event (.percentSet value caller))
    return plan.next
  | .tokenAdded id =>
    Ledger.addToken (some id)
    Work.record (.event (.tokenAdded id))
    return plan.next
  | .tokenRemoved id =>
    Ledger.removeToken id
    Work.record (.event (.tokenRemoved id))
    return plan.next

namespace Service

/-- The stored fee state. -/
def loadState : Work FeeState := do
  Work.ofExcept (needState (← Ledger.load))

/-- Makes a change and gives the fee state after it. -/
def change (c : Change) : Work FeeState := do
  let seen ← Ledger.load
  let plan ← Work.ofExcept (c.plan seen)
  plan.carryOut

/-- Creates the fee state. -/
def establish (caller : String) (tokens : List String) (standard : Option String) :
    Work FeeState :=
  change (.establish caller tokens standard)

/-- Sets the percent and gives its text. -/
def setPercent (caller text : String) : Work String := do
  Work.ofExcept (← change (.setPercent caller text)).percentText

/-- Adds a token and gives the tokens after it. -/
def addToken (id : String) : Work (List String) := do
  return (← change (.addToken id)).tokens.toList

/-- Removes a token and gives the tokens after it. -/
def removeToken (id : String) : Work (List String) := do
  return (← change (.removeToken id)).tokens.toList

/-- The fee of a transfer. -/
def fee (t : Transfer) : Work Int := do
  Work.ofExcept ((← loadState).fee t)

/-- The text of the percent. -/
def percentText : Work String := do
  Work.ofExcept (← loadState).percentText

/-- The supported tokens. -/
def listTokens : Work (List String) := do
  return (← loadState).tokens.toList

end Service

end TransferFees
