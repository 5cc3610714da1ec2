import TransferFees.Proofs.BadRows
import TransferFees.Proofs.Establishing

/-!
# Answers over rows that make no fee state

A fee row that makes no fee state stops every operation of the service, and a request hears of it by
the way in which its endpoint refuses errors. All endpoints load the fee state first, so the error
that comes up is the same for all of them (`Http.Call.exists_answer_eq`). What they make of it is
not. Six of the seven expect no such error and take it for a fault of the server. The one that
creates the fee state has a refusal ready for errors of this kind, because they are also what it
meets when the account ids of its own request are no good. So it tells the one who asks about a
fault that lies in the rows (`Http.handle_of_bad_row`).
-/

namespace TransferFees

open Work

namespace Http

/-! ## How the endpoints take the error -/

/-- The call is to create the fee state. -/
def Call.creates : Call → Bool
  | .establish .. => true
  | _ => false

/-- What a call was about when an error came up that its endpoint does not expect. -/
def Call.doing : Call → String
  | .establish .. => "initializing fees"
  | .fee _ => "calculating fee"
  | .percentText => "getting fee percent"
  | .setPercent .. => "setting fee percent"
  | .listTokens => "listing supported tokens"
  | .addToken _ => "adding supported token"
  | .removeToken _ => "removing supported token"

/-- How a call is refused where the rows make no fee state. -/
def Call.rowRefusal (call : Call) (e : FeeError) : Refusal :=
  if call.creates then .warned 400 e ("Invalid request: " ++ e.message)
  else .unexpected call.doing e

/-- Every call is answered by a unit of work that loads before it does anything else, and its
endpoint has its one way with the errors of rows. -/
theorem Call.exists_answer_eq (settings : Settings) (call : Call) :
    ∃ (work : Work Response) (refuse : FeeError → Refusal),
      call.answer settings = serve work refuse ∧ work.LoadsFirst ∧
        refuse .percentOutOfRange = call.rowRefusal .percentOutOfRange ∧
        ∀ reason, refuse (.account reason) = call.rowRefusal (.account reason) := by
  cases call with
  | establish caller form =>
      exact ⟨_, _, rfl, (Service.loadsFirst_change _).bind _, rfl, fun _ => rfl⟩
  | fee form => exact ⟨_, _, rfl, (Service.loadsFirst_fee _).bind _, rfl, fun _ => rfl⟩
  | percentText => exact ⟨_, _, rfl, Service.loadsFirst_percentText.bind _, rfl, fun _ => rfl⟩
  | setPercent caller form =>
      exact ⟨_, _, rfl, (Service.loadsFirst_setPercent _ _).bind _, rfl, fun _ => rfl⟩
  | listTokens => exact ⟨_, _, rfl, Service.loadsFirst_listTokens.bind _, rfl, fun _ => rfl⟩
  | addToken form => exact ⟨_, _, rfl, (Service.loadsFirst_addToken _).bind _, rfl, fun _ => rfl⟩
  | removeToken id =>
      exact ⟨_, _, rfl, (Service.loadsFirst_removeToken _).bind _, rfl, fun _ => rfl⟩

section
variable {r : Request} {call : Call} {t : Tables} {e : FeeError}

/-- Where loading fails, the error is refused and nothing else happens. -/
theorem serve_of_load_error {work : Work Response} (hwork : work.LoadsFirst)
    (hload : t.load = .error e) (refuse : FeeError → Refusal) :
    serve work refuse (.ready t) =
      ⟨(refuse e).response, .ready t, (refuse e).entry.toList⟩ := by
  rw [serve, commit_of_error (hwork t [] e hload)]
  rfl

theorem Call.answer_of_bad_row (settings : Settings) (call : Call) (hload : t.load = .error e)
    (hfault : e.IsRowFault) :
    call.answer settings (.ready t) =
      ⟨(call.rowRefusal e).response, .ready t, (call.rowRefusal e).entry.toList⟩ := by
  obtain ⟨work, refuse, hanswer, hwork, hpercent, haccount⟩ := call.exists_answer_eq settings
  have hrefuse : refuse e = call.rowRefusal e := by
    rcases hfault with rfl | ⟨reason, rfl⟩
    · exact hpercent
    · exact haccount reason
  rw [hanswer, serve_of_load_error hwork hload, hrefuse]

/-! ## What a request hears -/

theorem handle_of_load_error (settings : Settings) (hcall : r.call? = some call)
    (hload : t.load = .error e) (hfault : e.IsRowFault) :
    handle settings r (.ready t) =
      ⟨(call.rowRefusal e).response.withHeaders (originHeaders r), .ready t,
        (call.rowRefusal e).entry.toList⟩ := by
  rw [handle_of_call settings hcall, call.answer_of_bad_row settings hload hfault]

/-- **Over a row that makes no fee state a request stores nothing, and it is told of a fault of the
server unless it is to create the fee state.** If it is, then it is refused as if it were itself at
fault, with the words for what is wrong with the rows. Where several tokens are no account ids,
these words name the least of them, which is the one that `FeeState.make` comes to first; nothing
else depends on that. -/
theorem handle_of_bad_row (settings : Settings) (hcall : r.call? = some call)
    (hrow : t.fees.isSome) (hbad : ¬t.MakeState) :
    let exchange := handle settings r (.ready t)
    exchange.storage = .ready t ∧
      ∃ e, t.load = .error e ∧ e.IsRowFault ∧
        (call.creates = false →
          exchange.response.status = 500 ∧
            exchange.response.body =
              .json (.object [("detail", .text "Internal server error")]) ∧
            exchange.log =
              [.note .error .routes ("Error " ++ call.doing ++ ": " ++ e.message)]) ∧
        (call.creates = true →
          exchange.response.status = 400 ∧
            exchange.response.body = .json (.object [("detail", .text e.message)]) ∧
            exchange.log = [.note .warning .routes ("Invalid request: " ++ e.message)]) := by
  intro exchange
  obtain ⟨e, hload, hfault⟩ := Tables.load_of_bad_row hrow hbad
  have hexchange : exchange = _ := handle_of_load_error settings hcall hload hfault
  rw [hexchange]
  refine ⟨rfl, e, hload, hfault, ?_, ?_⟩
  · intro hcreates
    rw [Call.rowRefusal, hcreates]
    exact ⟨rfl, rfl, rfl⟩
  · intro hcreates
    rw [Call.rowRefusal, hcreates]
    exact ⟨rfl, rfl, rfl⟩

end

/-- One of the tokens is no account id, and nobody can list them. -/
theorem handle_of_bad_row_token :
    let r : Request := ⟨"http://localhost", "GET", "/api/v1/fees/tokens", [], ""⟩
    let t : Tables := ⟨some ⟨"alice.near", 500⟩, .ofList ["Wrap"]⟩
    r.call? = some .listTokens ∧ t.fees.isSome ∧ ¬t.MakeState ∧
      (handle {} r (.ready t)).storage = .ready t ∧
      (handle {} r (.ready t)).response.status = 500 := by
  intro r t
  have hroute : Route.ofRequest ⟨"http://localhost", "GET", "/api/v1/fees/tokens", [], ""⟩ =
      .endpoint .listTokens := by decide
  have hcall : r.call? = some .listTokens := congrArg (Route.call? r) hroute
  have hbad : ¬t.MakeState := by
    rintro ⟨row, -, -, -, htokens⟩
    exact absurd (htokens "Wrap" (by decide)) (by decide)
  obtain ⟨hstorage, e, -, -, hserver, -⟩ := handle_of_bad_row {} hcall rfl hbad
  exact ⟨hcall, rfl, hbad, hstorage, (hserver rfl).1⟩

/-- The percent of the fee row is too high, and the next one who wants to create the fee state is
told that the request is at fault. -/
theorem handle_of_bad_row_blames_caller :
    let r := Request.forUsdtBy "bob.near"
    let t : Tables := ⟨some ⟨"alice.near", 1001⟩, .empty⟩
    let exchange := handle {} r (.ready t)
    r.call? = some (.establish "bob.near" ⟨["usdt.near"]⟩) ∧ t.fees.isSome ∧ ¬t.MakeState ∧
      exchange.response.status = 400 ∧
      exchange.response.body =
        .json (.object [("detail", .text "Fee percent must be between 1 and 1000")]) ∧
      exchange.log = [.note .warning .routes
        "Invalid request: Fee percent must be between 1 and 1000"] := by
  intro r t exchange
  have hcall : r.call? = some (.establish "bob.near" ⟨["usdt.near"]⟩) :=
    (Request.establishes_forUsdtBy "bob.near").call? (by decide)
  have hbad : ¬t.MakeState := by
    rintro ⟨row, hrow, -, ⟨-, hpercent⟩, -⟩
    cases hrow
    exact absurd hpercent (by decide)
  have hexchange : exchange = _ :=
    handle_of_load_error {} hcall (t := t) (e := .percentOutOfRange) rfl (.inl rfl)
  rw [hexchange]
  exact ⟨hcall, rfl, hbad, rfl, rfl, rfl⟩

end Http

end TransferFees
