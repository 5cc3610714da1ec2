import TransferFees.Forms
import TransferFees.Http.CrossOrigin
import TransferFees.Http.Intake
import TransferFees.Http.Resource
import TransferFees.Service
import TransferFees.Settings

/-!
# The HTTP interface

How a request is answered. First it is led to an endpoint; then what it carries is checked; only
then is storage touched, in one unit of work. An endpoint is a unit of work that gives the answer,
and a table of refusals: for every error the status, the reason that is told, and the entry that is
logged. Errors that a table does not name are refused with status 500 and no reason.
-/

namespace TransferFees.Http

/-- An answer, with what is stored after it and the entries that were written. -/
structure Exchange where
  /-- The answer. -/
  response : Response
  /-- What is stored afterwards. -/
  storage : Storage
  /-- The entries that were written. -/
  log : List LogEntry

namespace Exchange

/-- An answer that leaves storage and log alone. -/
def still (response : Response) (storage : Storage) : Exchange := ⟨response, storage, []⟩

end Exchange

/-- How an error is answered. -/
structure Refusal where
  /-- The status of the answer. -/
  status : Nat
  /-- The reason that is told. -/
  reason : String
  /-- The entry that is logged, if any is. -/
  entry : Option LogEntry

namespace Refusal

/-- A refusal that is not logged. -/
def silent (status : Nat) (e : FeeError) : Refusal := ⟨status, e.message, none⟩

/-- A refusal that is logged as a warning. -/
def warned (status : Nat) (e : FeeError) (warning : String) : Refusal :=
  ⟨status, e.message, some (.note .warning .routes warning)⟩

/-- The refusal for an error that the endpoint does not expect. -/
def unexpected (doing : String) (e : FeeError) : Refusal :=
  ⟨500, "Internal server error",
    some (.note .error .routes ("Error " ++ doing ++ ": " ++ e.message))⟩

/-- The answer of a refusal. -/
def response (r : Refusal) : Response := .detail r.status (.text r.reason)

end Refusal

/-- Answers a request by a unit of work, or by the refusal of the error it fails with. -/
def serve (work : Work Response) (refuse : FeeError → Refusal) (storage : Storage) : Exchange :=
  let outcome := work.commit storage
  match outcome.result with
  | .ok response => ⟨response, outcome.storage, outcome.log⟩
  | .error e =>
    let refusal := refuse e
    ⟨refusal.response, outcome.storage, outcome.log ++ refusal.entry.toList⟩

/-- Logs that a request was granted. -/
def granted (message : String) : Work Unit := Work.record (.note .info .routes message)

/-! ## The endpoints of the fee state -/

/-- Creates the fee state. -/
def establish (settings : Settings) (caller : String) (form : EstablishForm) :
    Storage → Exchange :=
  serve
    (do
      let state ← Service.establish caller form.tokens (some settings.standardPercent)
      granted ("Fees calculator initialized by " ++ caller)
      let percent ← Work.ofExcept state.percentText
      return .ofJson 201 (StateAnswer.toJson ⟨state.owner, percent, state.tokens.toList⟩))
    fun
      | .alreadyInitialized =>
        .warned 409 .alreadyInitialized ("Repeated initialization attempt by " ++ caller)
      | .account reason =>
        .warned 400 (.account reason) ("Invalid request: " ++ (FeeError.account reason).message)
      | .percentOutOfRange =>
        .warned 400 .percentOutOfRange ("Invalid request: " ++ FeeError.percentOutOfRange.message)
      | .negativeAmount =>
        .warned 400 .negativeAmount ("Invalid request: " ++ FeeError.negativeAmount.message)
      | e => .unexpected "initializing fees" e

/-- Gives the fee of a transfer. -/
def fee (form : FeeForm) : Storage → Exchange :=
  serve
    (do
      let value ← Service.fee form.transfer
      return .ofJson 200 (FeeAnswer.toJson ⟨Numeral.signedText value⟩))
    fun
      | .notInitialized => .silent 409 .notInitialized
      | e => .unexpected "calculating fee" e

/-- Gives the percent. -/
def percentText : Storage → Exchange :=
  serve
    (do
      let percent ← Service.percentText
      return .ofJson 200 (PercentAnswer.toJson ⟨percent⟩))
    fun
      | .notInitialized => .silent 409 .notInitialized
      | e => .unexpected "getting fee percent" e

/-- Sets the percent. -/
def setPercent (caller : String) (form : PercentForm) : Storage → Exchange :=
  serve
    (do
      let percent ← Service.setPercent caller form.percent
      granted ("Fee percent changed to " ++ percent ++ " by " ++ caller)
      return .ofJson 200 (PercentAnswer.toJson ⟨percent⟩))
    fun
      | .unauthorized =>
        .warned 403 .unauthorized ("Unauthorized fee percent change by " ++ caller)
      | .newPercent reason =>
        .warned 400 (.newPercent reason)
          ("Invalid fee percent '" ++ form.percent ++ "': " ++ (FeeError.newPercent reason).message)
      | .notInitialized => .silent 409 .notInitialized
      | e => .unexpected "setting fee percent" e

/-- Lists the supported tokens. -/
def listTokens : Storage → Exchange :=
  serve
    (do
      let tokens ← Service.listTokens
      return .ofJson 200 (TokensAnswer.ofList tokens).toJson)
    fun
      | .notInitialized => .silent 409 .notInitialized
      | e => .unexpected "listing supported tokens" e

/-- Adds a token. -/
def addToken (form : TokenForm) : Storage → Exchange :=
  serve
    (do
      let tokens ← Service.addToken form.token
      granted ("Added supported token: " ++ form.token)
      return .ofJson 201 (TokensAnswer.ofList tokens).toJson)
    fun
      | .tokenPresent =>
        .warned 409 .tokenPresent
          ("Cannot add token " ++ form.token ++ ": " ++ FeeError.tokenPresent.message)
      | .notInitialized =>
        .warned 409 .notInitialized
          ("Cannot add token " ++ form.token ++ ": " ++ FeeError.notInitialized.message)
      | e => .unexpected "adding supported token" e

/-- Removes a token. -/
def removeToken (id : String) : Storage → Exchange :=
  serve
    (do
      let tokens ← Service.removeToken id
      granted ("Removed supported token: " ++ id)
      return .ofJson 200 (TokensAnswer.ofList tokens).toJson)
    fun
      | .tokenAbsent absent => .warned 404 (.tokenAbsent absent) ("Token not found: " ++ id)
      | .notInitialized => .silent 409 .notInitialized
      | e => .unexpected "removing supported token" e

/-! ## All endpoints -/

/-- The answer of the root. -/
def rootAnswer (settings : Settings) : Json :=
  .object [("service", .text settings.appName), ("version", .text settings.appVersion),
    ("status", .text "running")]

/-- The answer to whether the service is well. -/
def healthAnswer : Json := .object [("status", .text "healthy")]

/-- The answer to a request that is turned down before anything is done. -/
def IntakeError.response : IntakeError → Response
  | .invalid issues => .detail 422 (.list (issues.map Issue.toJson))
  | .unreadable => .detail 400 (.text "There was an error parsing the body")

/-- Goes on with what a request carries, or turns it down. -/
def proceed {α : Type} (intake : Except IntakeError α) (next : α → Storage → Exchange)
    (storage : Storage) : Exchange :=
  match intake with
  | .ok carried => next carried storage
  | .error e => .still e.response storage

/-- Answers a request that leads to an endpoint. -/
def Endpoint.answer (settings : Settings) (r : Request) : Endpoint → Storage → Exchange
  | .root => Exchange.still (.ofJson 200 (rootAnswer settings))
  | .health => Exchange.still (.ofJson 200 healthAnswer)
  | .establish =>
    proceed (r.intake r.caller EstablishForm.ofObject)
      fun (caller, form) => Http.establish settings caller form
  | .fee => proceed (r.intake (.ok ()) FeeForm.ofObject) fun (_, form) => Http.fee form
  | .percentText => Http.percentText
  | .setPercent =>
    proceed (r.intake r.caller PercentForm.ofObject)
      fun (caller, form) => Http.setPercent caller form
  | .listTokens => Http.listTokens
  | .addToken => proceed (r.intake (.ok ()) TokenForm.ofObject) fun (_, form) => Http.addToken form
  | .removeToken id => Http.removeToken id

/-- Answers a request, apart from what concerns other origins. -/
def answer (settings : Settings) (r : Request) (storage : Storage) : Exchange :=
  match Route.ofRequest r with
  | .endpoint e => e.answer settings r storage
  | .notAllowed allowed =>
    .still ((Response.detail 405 (.text "Method Not Allowed")).withHeaders [("allow", allowed)])
      storage
  | .elsewhere location => .still ⟨307, .text "", [("location", location)]⟩ storage
  | .nowhere => .still (.detail 404 (.text "Not Found")) storage

/-- Answers a request. An answer that cannot be written is replaced by one that tells nothing. -/
def handle (settings : Settings) (r : Request) (storage : Storage) : Exchange :=
  match preflight? r with
  | some response => .still response storage
  | none =>
    let exchange := answer settings r storage
    if exchange.response.body.isWritable then
      { exchange with response := exchange.response.withHeaders (originHeaders r) }
    else { exchange with response := .failed }

end TransferFees.Http
