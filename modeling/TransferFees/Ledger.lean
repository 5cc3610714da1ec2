import TransferFees.Work

/-!
# The stored fee state

Units of work on the rows of the two tables. Reading the fee state builds it anew from its rows, so
rows that make no fee state make every reading fail. Writing checks no more than the tables do:
there is one fee row, a token is there once, and a number fits its column.
-/

namespace TransferFees.Ledger

/-- The supported tokens. -/
def tokens : Work TokenSet := do
  return (← Work.readTables .tokens).tokens

/-- Adds a token. What is not a text cannot be added, and counts as if it were there. -/
def addToken (id : Option String) : Work Unit := do
  let tables ← Work.readTables .tokens
  match id with
  | none => Work.fail .tokenPresent
  | some id =>
    if id ∈ tables.tokens then Work.fail .tokenPresent
    else Work.writeTables { tables with tokens := tables.tokens.insert id }

/-- Removes a token. -/
def removeToken (id : String) : Work Unit := do
  let tables ← Work.readTables .tokens
  if id ∈ tables.tokens then Work.writeTables { tables with tokens := tables.tokens.erase id }
  else Work.fail (.tokenAbsent id)

/-- The fee state that a fee row makes with the tokens that are there. -/
def stateOf (row : FeeRow) : Work FeeState := do
  let tokens ← tokens
  Work.ofExcept (FeeState.make row.owner row.percent tokens)

/-- The fee state, if there is a fee row. -/
def load : Work (Option FeeState) := do
  let tables ← Work.readTables .fees
  match tables.fees with
  | none => return none
  | some row => return some (← stateOf row)

/-- Adds several tokens, one after the other. -/
def addTokens : List String → Work Unit
  | [] => return ()
  | id :: rest => do
    addToken (some id)
    addTokens rest

/-- Writes a fee state for the first time: its row, then its tokens. Tokens that were there before
the row belong to the state that is read back. -/
def create (state : FeeState) : Work FeeState := do
  let tables ← Work.readTables .fees
  if tables.fees.isSome then
    Work.fail .alreadyInitialized
  else
    let row : FeeRow := ⟨state.owner, state.percent⟩
    Work.writeTables { tables with fees := some row }
    addTokens state.tokens.toList
    stateOf row

/-- Writes another percent into the fee row; without a row nothing happens. -/
def setPercent (value : Int) : Work Unit := do
  let tables ← Work.readTables .fees
  if fitsColumn value then
    Work.writeTables { tables with fees := tables.fees.map ({ · with percent := value }) }
  else Work.fail (.storage .numberTooLarge)

end TransferFees.Ledger
