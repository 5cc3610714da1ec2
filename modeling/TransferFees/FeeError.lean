import TransferFees.AccountId
import TransferFees.Percent
import TransferFees.Storage

/-!
# Errors

The reasons why an operation on fees fails, each with the sentence that reports it.
-/

namespace TransferFees

/-- Why an operation on fees fails. -/
inductive FeeError where
  /-- A value is not an account id. -/
  | account (reason : AccountId.Error)
  /-- A percent lies outside the range. -/
  | percentOutOfRange
  /-- An amount is negative. -/
  | negativeAmount
  /-- The text of the standard percent is no fee percent. -/
  | standardPercent (reason : Percent.ParseError)
  /-- The text of a new percent is no fee percent. -/
  | newPercent (reason : Percent.ParseError)
  /-- A percent takes too many digits to be written. -/
  | percentTooLong
  /-- Someone other than the owner asks for a new percent. -/
  | unauthorized
  /-- There is a fee state already. -/
  | alreadyInitialized
  /-- There is no fee state yet. -/
  | notInitialized
  /-- The token is among the supported ones already. -/
  | tokenPresent
  /-- The token is not among the supported ones. -/
  | tokenAbsent (id : String)
  /-- An access to storage fails. -/
  | storage (fault : StorageFault)
  deriving DecidableEq, Repr

/-- The sentence that reports an error. -/
def FeeError.message : FeeError → String
  | .account reason => reason.message
  | .percentOutOfRange => "Fee percent must be between 1 and 1000"
  | .negativeAmount => "Amount cannot be negative"
  | .standardPercent reason => reason.message
  | .newPercent reason => "Couldn't parse percent: " ++ reason.message
  | .percentTooLong => "[<class 'decimal.InvalidOperation'>]"
  | .unauthorized => "Only the owner can change the fee percent"
  | .alreadyInitialized => "Fees calculator is already initialized"
  | .notInitialized => "Fees calculator is not initialized"
  | .tokenPresent => "Token is already present"
  | .tokenAbsent id => "Nothing to remove, token: " ++ id ++ " hasn't been added"
  | .storage fault => fault.message

end TransferFees
