import TransferFees.FeeError
import TransferFees.TokenSet

/-!
# Fee states

A fee state says who owns the fees, what percent is charged, and for which tokens. `make` is the
only door in: it checks the owner, then the percent, then the tokens. The operations that follow
keep what `make` has checked, and an operation that fails gives no new state.

The fee of an amount is the given number of ten-thousandths of it, rounded down. The product before
the division is capped at the greatest number of 256 bits.
-/

namespace TransferFees

/-! ## The fee of an amount -/

/-- A percent in hundredths counts parts of this number. -/
def feeDenominator : Int := 10000

/-- The greatest amount of a request: 128 bits. -/
def greatestAmount : Int := 0xFFFFFFFFFFFFFFFFFFFFFFFFFFFFFFFF

/-- The cap of the product of amount and percent: 256 bits. -/
def greatestProduct : Int := 0xFFFFFFFFFFFFFFFFFFFFFFFFFFFFFFFFFFFFFFFFFFFFFFFFFFFFFFFFFFFFFFFF

/-- The fee of an amount at a percent in hundredths. -/
def feeOf (amount percent : Int) : Except FeeError Int :=
  if amount < 0 then .error .negativeAmount
  else .ok (min (percent * amount) greatestProduct / feeDenominator)

/-- A transfer that a fee is asked for. -/
structure Transfer where
  /-- How much is transferred. -/
  amount : Int
  /-- The token that is transferred. -/
  token : String
  /-- The network it goes to. -/
  network : String
  /-- The recipient there. -/
  address : String

/-! ## States -/

/-- Who owns the fees, what is charged, and for which tokens. -/
structure FeeState where
  /-- The account that may change the percent. -/
  owner : String
  /-- The percent in hundredths. -/
  percent : Int
  /-- The tokens that a fee is charged for. -/
  tokens : TokenSet
  deriving DecidableEq

namespace FeeState

/-- An account id, or the error that it is none. -/
def checkAccount (id : String) : Except FeeError String :=
  (AccountId.check id).mapError .account

/-- The state with the given parts, if the owner is an account id, the percent lies in the range and
every token is an account id. The first part that fails gives the error. Tokens are checked in
ascending order. A set has no order of its own, and nothing but the id that the error names depends
on this one, where several tokens are no account ids. -/
def make (owner : String) (percent : Int) (tokens : TokenSet) : Except FeeError FeeState := do
  let _ ← checkAccount owner
  if percent < Percent.least ∨ Percent.greatest < percent then
    throw .percentOutOfRange
  for token in tokens.toList do
    let _ ← checkAccount token
  return ⟨owner, percent, tokens⟩

/-- The same for an owner and tokens that may be something other than texts. -/
def makeOfValues (owner : Option String) (percent : Int) (tokens : List (Option String)) :
    Except FeeError FeeState := do
  match owner with
  | none => throw (.account .notText)
  | some owner =>
    let _ ← make owner percent .empty
    if tokens.contains none then
      throw (.account .notText)
    make owner percent (.ofList (tokens.filterMap id))

/-- A new state; a percent that is not named is the standard one. -/
def new (owner : String) (tokens : List String) (percent : Option Int) : Except FeeError FeeState :=
  make owner (percent.getD Percent.standard) (.ofList tokens)

/-- The fee of a transfer. A token without support costs nothing, whatever the amount; network and
address do not matter. -/
def fee (s : FeeState) (t : Transfer) : Except FeeError Int :=
  if t.token ∈ s.tokens then feeOf t.amount s.percent else .ok 0

/-- The percent as a text. -/
def percentText (s : FeeState) : Except FeeError String :=
  match Percent.format? s.percent with
  | some text => .ok text
  | none => .error .percentTooLong

/-- The state with the percent that `text` stands for. Only the owner may ask for it, and who asks
is looked at before the text is. -/
def setPercent (s : FeeState) (caller text : String) : Except FeeError FeeState :=
  if caller ≠ s.owner then .error .unauthorized
  else match Percent.parse text with
    | .ok percent => .ok { s with percent }
    | .error reason => .error (.newPercent reason)

/-- The state with one more token. -/
def addToken (s : FeeState) (id : String) : Except FeeError FeeState := do
  let _ ← checkAccount id
  if id ∈ s.tokens then
    throw .tokenPresent
  return { s with tokens := s.tokens.insert id }

/-- The state with one token less. -/
def removeToken (s : FeeState) (id : String) : Except FeeError FeeState :=
  if id ∈ s.tokens then .ok { s with tokens := s.tokens.erase id }
  else .error (.tokenAbsent id)

end FeeState

/-! ## Commands

A fee state in memory takes one command after the other.
-/

/-- What a fee state in memory may be asked. -/
inductive Command where
  /-- The fee of a transfer. -/
  | fee (t : Transfer)
  /-- A new percent. -/
  | setPercent (caller text : String)
  /-- The percent as a text. -/
  | percentText
  /-- The supported tokens. -/
  | listTokens
  /-- One more token. -/
  | addToken (id : String)
  /-- One token less. -/
  | removeToken (id : String)

/-- What a command gives. -/
inductive Reply where
  /-- A fee. -/
  | fee (value : Int)
  /-- A percent in hundredths. -/
  | percent (value : Int)
  /-- A percent as a text. -/
  | text (s : String)
  /-- Tokens in ascending order. -/
  | tokens (ids : List String)
  /-- Nothing to tell. -/
  | done

/-- The reply to a command, and the state after it. A command that fails leaves the state as it
is. -/
def FeeState.apply (s : FeeState) : Command → Except FeeError Reply × FeeState
  | .fee t => ((s.fee t).map .fee, s)
  | .setPercent caller text =>
    match s.setPercent caller text with
    | .ok next => (.ok (.percent next.percent), next)
    | .error e => (.error e, s)
  | .percentText => (s.percentText.map .text, s)
  | .listTokens => (.ok (.tokens s.tokens.toList), s)
  | .addToken id =>
    match s.addToken id with
    | .ok next => (.ok .done, next)
    | .error e => (.error e, s)
  | .removeToken id =>
    match s.removeToken id with
    | .ok next => (.ok .done, next)
    | .error e => (.error e, s)

end TransferFees
