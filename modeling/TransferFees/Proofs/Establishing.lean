import Mathlib
import TransferFees.Proofs.Statuses

/-!
# Two ways to establish the fees

The setup command and a request ask the service for the same change. Everything around it is done
twice: the arguments of one and the body of the other are read by other rules, each has its own unit
of work to commit, and each tells of errors in its own way. What the change comes to is a matter of
the tables alone, though (`Change.outcome`), and both ways follow it. So on the same tables they
store the same, and each answer of one goes with one answer of the other
(`Setup.run_alike_handle`).
-/

namespace TransferFees

open Text Work

theorem AccountId.mapM_check_of_isValid {ids : List String}
    (h : ∀ id ∈ ids, AccountId.isValid id = true) : ids.mapM AccountId.check = .ok ids := by
  have hchecks := Except.mapM_eq_ok (g := id) fun other hother =>
    AccountId.check_eq_ok_iff.2 ⟨rfl, h other hother⟩
  rwa [List.map_id] at hchecks

namespace Checked

theorem eachText_map_text (index : Nat) (items : List String) :
    eachText index (items.map .text) = .ok items := by
  induction items generalizing index with
  | nil => rfl
  | cons s rest ih =>
      rw [List.map_cons, eachText, ih]
      rfl

theorem accountIds_texts {ids : List String} (h : ∀ id ∈ ids, AccountId.isValid id = true) :
    accountIds (.texts ids) = .ok ids := by
  have htexts : texts (.texts ids) = .ok ids := eachText_map_text 0 ids
  simp only [accountIds, htexts, AccountId.mapM_check_of_isValid h, bind, Except.bind]
  rfl

end Checked

/-- Where the change succeeds, the fee state that is given is the one that is stored. -/
theorem Change.establish_outcome {caller : String} {tokens : List String}
    {standard : Option String} {t : Tables} {e : Event} {next : FeeState}
    (h : (Change.establish caller tokens standard).outcome t = .ok (e, next)) :
    next.Valid ∧ e.replay t = next.tables := by
  rcases outcome_cases h with ⟨-, rfl, hnext, -⟩ | ⟨s, -, -, hplanned⟩
  · exact ⟨hnext, rfl⟩
  · cases hplanned

/-! ## By a request -/

namespace Http

/-- The request asks for the fees to be established, `value` is in its header of the caller, and its
body is an object that holds the texts `tokens`. -/
structure Request.Establishes (r : Request) (value : String) (tokens : List String) : Prop where
  endpoint : Route.ofRequest r = .endpoint .establish
  header : r.header? callerHeader.toLower = some value
  content : ∃ v, r.content = .value v ∧ v.field? "tokens" = some (.texts tokens)

section
variable {r : Request} {value : String} {tokens : List String}

/-- Such a request is in order, and what is left of it are the caller and the tokens. -/
theorem Request.Establishes.call? (h : r.Establishes value tokens)
    (htokens : ∀ id ∈ tokens, AccountId.isValid id = true) :
    r.call? = some (.establish (strip value) ⟨tokens⟩) := by
  obtain ⟨v, hcontent, hfield⟩ := h.content
  have hcaller : r.caller = .ok (strip value) := by rw [Request.caller, h.header]
  have hform : EstablishForm.ofObject v = .ok ⟨tokens⟩ := by
    simp only [EstablishForm.ofObject, Checked.optional, hfield, Checked.accountIds_texts htokens]
    rfl
  rw [Request.call?, h.endpoint, Route.call?, Endpoint.call?,
    r.intake_of_value hcontent (Json.isSome_object? hfield), hcaller, hform]
  rfl

end

/-- What fails is refused in the words of the endpoint and stores nothing. -/
theorem serve_of_fails {work : Work Response} {refuse : FeeError → Refusal} {s : Storage}
    {e : FeeError} (h : work.Fails ⟨s, []⟩ e) :
    (serve work refuse s).response = (refuse e).response ∧ (serve work refuse s).storage = s := by
  constructor
  · simp only [serve, h.commit]
  · rw [storage_serve]
    exact storage_of_commit_error h.commit

section
variable {settings : Settings} {caller : String} {t : Tables}

/-- The request is answered as one that created something, and that is stored. -/
theorem establish_of_outcome_ok (form : EstablishForm) {e : Event} {next : FeeState}
    (h : (Change.establish caller form.tokens (some settings.standardPercent)).outcome t =
      .ok (e, next)) :
    let exchange := establish settings caller form (.ready t)
    exchange.response.status = 201 ∧ exchange.storage = .ready next.tables := by
  intro exchange
  obtain ⟨hnext, hreplay⟩ := Change.establish_outcome h
  obtain ⟨text, htext⟩ := hnext.percentText
  have hstatus : exchange.response.status = 201 :=
    answersWith_of_yields (.bind (Service.yields_change h) fun d =>
      .bind (yields_record _ d) fun d => .bind (yields_ofExcept htext d) (yields_pure _)) rfl
  refine ⟨hstatus, ?_⟩
  obtain ⟨t', e', next', ht, h', hstorage⟩ :=
    (establish_carries settings caller form).made (s := .ready t) (by rw [hstatus]; decide)
  cases ht
  cases h.symm.trans h'
  rw [← hreplay]
  exact hstorage

/-- The request is refused, and nothing is stored. -/
theorem establish_of_outcome_error (form : EstablishForm) {err : FeeError}
    (h : (Change.establish caller form.tokens (some settings.standardPercent)).outcome t =
      .error err) :
    let exchange := establish settings caller form (.ready t)
    400 ≤ exchange.response.status ∧
      (exchange.response.status = 409 ↔ err = .alreadyInitialized) ∧ exchange.storage = .ready t := by
  intro exchange
  have hserved : exchange.response = _ ∧ exchange.storage = .ready t :=
    serve_of_fails (.bind (Service.fails_change h))
  rw [hserved.1]
  refine ⟨?_, ?_, hserved.2⟩
  · cases err <;> exact Nat.le_of_ble_eq_true rfl
  · cases err <;> simp [Refusal.response, Refusal.warned, Refusal.unexpected, Response.detail,
      Response.ofJson]

end

end Http

/-! ## By the setup command -/

namespace Setup

/-- What a fee state that was created is logged as. -/
def created (state : FeeState) : LogEntry :=
  .note .info .setup
    ("Fee state created: owner=" ++ state.owner ++ ", tokens=" ++ quotedList state.tokens.toList)

/-- What a fee state that is there already is logged as. -/
def warned : LogEntry := .note .warning .setup FeeError.alreadyInitialized.message

/-- What is logged once there are tables. -/
def opening : List LogEntry :=
  [tablesCreated, .note .info .setup "Database initialized successfully"]

section
variable {settings : Settings} {owner : String} {tokens : List String} {t : Tables} {s : Storage}

/-- The setup command creates the fee state, says so twice, and ends well. -/
theorem runWith_of_outcome_ok {e : Event} {next : FeeState}
    (htables : s.createTables = .ok (.ready t)) (howner : owner ≠ "")
    (h : (Change.establish owner tokens (some settings.standardPercent)).outcome t =
      .ok (e, next)) :
    runWith settings ⟨.named owner, tokens⟩ s =
      ⟨0, .ready next.tables, opening ++ [.event e, created next]⟩ := by
  rw [← (Change.establish_outcome h).2]
  have hwork : establish settings owner tokens ⟨.ready t, []⟩ =
      (.ok (), ⟨.ready (e.replay t), [.event e, created next]⟩) :=
    bind_of_ok (Service.change_ok h)
  have hcommit := commit_of_ok hwork
  rw [runWith_of_ok htables howner (by rw [hcommit]), hcommit]
  rfl

/-- It does not take a fee state that is there already for a failure, and ends well with a warning.
-/
theorem runWith_of_outcome_error {err : FeeError} (htables : s.createTables = .ok (.ready t))
    (howner : owner ≠ "")
    (h : (Change.establish owner tokens (some settings.standardPercent)).outcome t =
      .error err) :
    runWith settings ⟨.named owner, tokens⟩ s =
      if err = .alreadyInitialized then ⟨0, .ready t, opening ++ [warned]⟩
      else ⟨1, .ready t, opening ++ [failed err.message]⟩ := by
  obtain ⟨s', hs'⟩ := Service.change_error (l := []) h
  have hwork : establish settings owner tokens ⟨.ready t, []⟩ = (.error err, ⟨s', []⟩) :=
    bind_of_error hs'
  simp only [runWith, htables, howner, if_false, commit_of_error hwork]
  cases err <;> rfl

/-! ## Both on the same tables -/

theorem created_not_mem_opening (state : FeeState) : created state ∉ opening := by
  intro h
  simp only [opening, List.mem_cons, List.not_mem_nil, or_false] at h
  rcases h with h | h
  · simp [created, tablesCreated] at h
  · -- the messages differ in their first characters
    have hchars := congrArg (fun entry => entry.message.toList) h
    simp [created, LogEntry.message, String.toList_append] at hchars

theorem created_ne_warned (state : FeeState) : created state ≠ warned := by
  simp [created, warned]

/-- Where a fee state is created nobody is warned. -/
theorem warned_not_mem_of_created (e : Event) (state : FeeState) :
    warned ∉ opening ++ [.event e, created state] := by
  simp [warned, opening, tablesCreated, created]

/-- **The setup command and a request to establish the fees come to the same.** -/
theorem run_alike_handle {argv : List String} {r : Http.Request} {value : String}
    (hargv : Arguments.parse argv = .ok ⟨.named owner, tokens⟩) (howner : owner ≠ "")
    (htokens : ∀ id ∈ tokens, AccountId.isValid id = true) (hr : r.Establishes value tokens)
    (hvalue : strip value = owner) (settings : Settings) (t : Tables) :
    let report := run settings argv (.ready t)
    let exchange := Http.handle settings r (.ready t)
    let status := exchange.response.status
    report.storage = exchange.storage ∧
      (status = 201 ↔ report.exitCode = 0 ∧
        ∃ state, report.storage = .ready state.tables ∧ created state ∈ report.log) ∧
      (status = 409 ↔ report.exitCode = 0 ∧ warned ∈ report.log) ∧
      (400 ≤ status ∧ status ≠ 409 ↔ report.exitCode = 1) := by
  intro report exchange status
  subst hvalue
  have hexchange : exchange = _ := Http.handle_of_call settings (hr.call? htokens) (.ready t)
  have hreport : report = runWith settings ⟨.named (strip value), tokens⟩ (.ready t) := by
    simp only [report, run, hargv]
  rcases houtcome : (Change.establish (strip value) tokens
      (some settings.standardPercent)).outcome t with err | ⟨e, next⟩
  · obtain ⟨hleast, h409, hstorage⟩ :=
      Http.establish_of_outcome_error ⟨tokens⟩ houtcome
    have hsame : exchange.storage = .ready t := by rw [hexchange]; exact hstorage
    have hstatus : 400 ≤ status ∧ (status = 409 ↔ err = .alreadyInitialized) := by
      simp only [status, hexchange]
      exact ⟨hleast, h409⟩
    have h201 : status ≠ 201 := by omega
    rw [runWith_of_outcome_error rfl howner houtcome] at hreport
    by_cases herr : err = .alreadyInitialized
    · rw [if_pos herr] at hreport
      simp [hreport, hsame, h201, hstatus, herr, created_not_mem_opening, created_ne_warned]
    · rw [if_neg herr] at hreport
      simp [hreport, hsame, h201, hstatus, herr]
  · obtain ⟨h201, hstorage⟩ := Http.establish_of_outcome_ok ⟨tokens⟩ houtcome
    have hsame : exchange.storage = .ready next.tables := by rw [hexchange]; exact hstorage
    have hstatus : status = 201 := by
      simp only [status, hexchange]
      exact h201
    rw [runWith_of_outcome_ok rfl howner houtcome] at hreport
    rw [hreport, hsame, hstatus]
    refine ⟨rfl, iff_of_true rfl ⟨rfl, next, rfl, by simp⟩, ?_, ?_⟩
    · exact iff_of_false (by decide) fun h => warned_not_mem_of_created e next h.2
    · exact iff_of_false (by decide) (by simp)

end

end Setup

/-- A request to establish the fees with one token that does not tell who asks. -/
def Http.Request.forUsdt : Request :=
  ⟨"http://localhost", "POST", "/api/v1/fees", [], "\x7b\"tokens\":[\"usdt.near\"]\x7d"⟩

/-- The same request with the given header of the caller. -/
def Http.Request.forUsdtBy (value : String) : Request :=
  { forUsdt with headers := [("content-type", "application/json"), (callerHeader, value)] }

theorem Http.Request.establishes_forUsdtBy (value : String) :
    (forUsdtBy value).Establishes value ["usdt.near"] := by
  have hroute : Route.ofRequest (forUsdtBy value) = .endpoint .establish := by
    rw [forUsdtBy, Route.ofRequest_headers]
    decide
  have htype : (forUsdtBy value).header? "content-type" = some "application/json" := by cbv
  have hread : Json.readOctets (forUsdtBy value).body.toList =
      .ok (.object [("tokens", .texts ["usdt.near"])]) := by cbv
  exact ⟨hroute, by cbv, _, content_of_readOctets htype hread, rfl⟩

/-- A token was there before the fee row, and both ways join the other token to it. -/
theorem Setup.run_alike_handle_beside_wrap :
    let argv := ["--owner", "owner.near", "usdt.near"]
    let r := Http.Request.forUsdtBy "owner.near"
    let t : Tables := ⟨none, .ofList ["wrap.near"]⟩
    Arguments.parse argv = .ok ⟨.named "owner.near", ["usdt.near"]⟩ ∧ "owner.near" ≠ "" ∧
      (∀ id ∈ ["usdt.near"], AccountId.isValid id = true) ∧
      r.Establishes "owner.near" ["usdt.near"] ∧ strip "owner.near" = "owner.near" ∧
      (Http.handle {} r (.ready t)).response.status = 201 ∧
      (Http.handle {} r (.ready t)).storage =
        .ready ⟨some ⟨"owner.near", 500⟩, .ofList ["usdt.near", "wrap.near"]⟩ := by
  intro argv r t
  have hargv : Arguments.parse argv = .ok ⟨.named "owner.near", ["usdt.near"]⟩ := rfl
  have hstrip : strip "owner.near" = "owner.near" := by decide
  have hr : r.Establishes "owner.near" ["usdt.near"] := Http.Request.establishes_forUsdtBy _
  have htokens : ∀ id ∈ ["usdt.near"], AccountId.isValid id = true := by decide
  have houtcome : (Change.establish "owner.near" ["usdt.near"] (some "5")).outcome t =
      .ok (.initialized ⟨"owner.near", 500, .ofList ["usdt.near", "wrap.near"]⟩,
        ⟨"owner.near", 500, .ofList ["usdt.near", "wrap.near"]⟩) := rfl
  have hreport : runWith {} ⟨.named "owner.near", ["usdt.near"]⟩ (.ready t) = _ :=
    runWith_of_outcome_ok rfl (by decide) houtcome
  have hrun : run {} argv (.ready t) =
      runWith {} ⟨.named "owner.near", ["usdt.near"]⟩ (.ready t) := by
    simp only [run, hargv]
  obtain ⟨hstorage, h201, -⟩ := run_alike_handle hargv (by decide) htokens hr hstrip {} t
  refine ⟨hargv, by decide, htokens, hr, hstrip, h201.2 ?_, ?_⟩
  · rw [hrun, hreport]
    exact ⟨rfl, _, rfl, by simp⟩
  · rw [← hstorage, hrun, hreport]
    rfl

end TransferFees
