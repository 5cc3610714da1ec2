import TransferFees.Http.Api
import TransferFees.Json.Writer
import TransferFees.Main
import TransferFees.Proofs.FeeState
import TransferFees.Proofs.Sessions
import TransferFees.Server
import TransferFees.Session
import TransferFees.Proofs.Changes
import TransferFees.Proofs.Refinement
import TransferFees.Proofs.Effects
import TransferFees.Proofs.Exchanges
import TransferFees.Proofs.Histories
import TransferFees.Proofs.Invariant
import TransferFees.Proofs.Phases
import TransferFees.Proofs.Successions
import TransferFees.Proofs.Interleavings
import TransferFees.Proofs.Fees
import TransferFees.Proofs.BadRows
import TransferFees.Proofs.Calls
import TransferFees.Proofs.Statuses
import TransferFees.Proofs.Numerals
import TransferFees.Proofs.FeeRequests
import TransferFees.Proofs.PercentEncoding
import TransferFees.Proofs.AccountIds
import TransferFees.Proofs.Patterns
import TransferFees.Proofs.TokenRequests
import TransferFees.Proofs.Successes
import TransferFees.Proofs.Owners
import TransferFees.Proofs.Reorderings
import TransferFees.Proofs.Answers
import TransferFees.Proofs.DecimalValues
import TransferFees.Proofs.Scaling
import TransferFees.Proofs.AuditLog
import TransferFees.Proofs.Creation
import TransferFees.Proofs.PercentOrder
import TransferFees.Proofs.Literals
import TransferFees.Proofs.PercentTexts
import TransferFees.Proofs.PercentErrors
import TransferFees.Proofs.AccountIdScan
import TransferFees.Proofs.Splitting
import TransferFees.Proofs.Reruns
import TransferFees.Proofs.MemoryStates
import TransferFees.Proofs.WrittenPercents
import TransferFees.Proofs.Spellings
import TransferFees.Proofs.NumeralReading
import TransferFees.Proofs.BadRowAnswers
import TransferFees.Proofs.TokenSets
