import TransferFees.Proofs.Calls
import TransferFees.Proofs.Fees
import TransferFees.Proofs.Invariant

/-!
# The statuses of answers

Which status a call is answered with is a matter of a few questions to the rows, asked in a fixed
order (`Call.status`). This holds on the tables that can be reached without writing rows past the
service. They are either fresh or the rows of a valid state (`Tables.Sound.cases`), and every error
that can come up there is one that the endpoint expects. So none of these answers has the status 500
(`Http.status_of_call`).
-/

namespace TransferFees

open Work

/-! ## Tables that can be reached -/

/-- Sound tables hold nothing, or the rows of a valid state: a token without a fee row is not sound.
-/
theorem Tables.Sound.cases {t : Tables} (h : t.Sound) :
    t = .fresh ∨ ∃ s : FeeState, s.Valid ∧ t = s.tables := by
  obtain ⟨fees, tokens⟩ := t
  cases fees with
  | none =>
      obtain rfl : tokens = .empty := h.orphans rfl
      exact .inl rfl
  | some row =>
      have hvalid : (⟨row.owner, row.percent, tokens⟩ : FeeState).Valid :=
        ⟨h.owner row rfl, h.percent row rfl, h.tokens⟩
      exact .inr ⟨_, hvalid, rfl⟩

namespace Action

/-- Tables do not go away. -/
theorem ready_after {a : Action} (hraw : a.isRaw = false) (t : Tables) :
    ∃ t', a.after (.ready t) = .ready t' := by
  obtain ⟨opened, hopened, heffect⟩ := effect hraw (.ready t)
  obtain rfl := hopened.eq_of_ready
  rcases heffect with hsame | ⟨-, c, -, hmade⟩
  · exact ⟨t, hsame⟩
  · obtain ⟨_, e, _, -, -, hafter⟩ := hmade
    exact ⟨_, hafter⟩

theorem ready_afterAll {history : List Action} (hraw : ∀ a ∈ history, a.isRaw = false)
    (t : Tables) : ∃ t', afterAll history (.ready t) = .ready t' := by
  induction history generalizing t with
  | nil => exact ⟨t, rfl⟩
  | cons a rest ih =>
      obtain ⟨ha, hrest⟩ := List.forall_mem_cons.1 hraw
      obtain ⟨t', ht'⟩ := ready_after ha t
      obtain ⟨t'', ht''⟩ := ih hrest t'
      refine ⟨t'', ?_⟩
      rw [← ht'', ← ht']
      rfl

end Action

/-! ## What comes out of the service -/

namespace Service

section
variable {t : Tables} {c : Change} {l : List LogEntry} {e : FeeError}

theorem yields_change {recorded : Event} {next : FeeState}
    (h : c.outcome t = .ok (recorded, next)) : (change c).Yields ⟨.ready t, l⟩ next :=
  ⟨_, change_ok h⟩

theorem fails_change (h : c.outcome t = .error e) : (change c).Fails ⟨.ready t, l⟩ e := by
  obtain ⟨s, hs⟩ := change_error (l := l) h
  exact ⟨_, hs⟩

/-- What is refused on the loaded state is refused. -/
theorem fails_change_of_plan {seen : Option FeeState} (hload : t.load = .ok seen)
    (hplan : c.plan seen = .error e) : (change c).Fails ⟨.ready t, l⟩ e := by
  refine fails_change ?_
  simp only [Change.outcome, hload, hplan, bind, Except.bind]

/-- Without a fee row nothing can be asked. -/
theorem fails_loadState_fresh : loadState.Fails ⟨.ready .fresh, l⟩ .notInitialized := ⟨_, rfl⟩

end

section
variable {s next : FeeState} {l : List LogEntry} {e : FeeError} {caller text id : String}

/-- What is valid is loaded, and each question is then one of the state. -/
theorem yields_loadState (hs : s.Valid) : loadState.Yields ⟨.ready s.tables, l⟩ s :=
  ⟨_, loadState_of_valid hs⟩

theorem yields_fee (hs : s.Valid) {t : Transfer} {value : Int} (h : s.fee t = .ok value) :
    (fee t).Yields ⟨.ready s.tables, l⟩ value :=
  (yields_loadState hs).bind (yields_ofExcept h)

theorem yields_percentText (hs : s.Valid) (h : s.percentText = .ok text) :
    percentText.Yields ⟨.ready s.tables, l⟩ text :=
  (yields_loadState hs).bind (yields_ofExcept h)

theorem yields_listTokens (hs : s.Valid) :
    listTokens.Yields ⟨.ready s.tables, l⟩ s.tokens.toList :=
  (yields_loadState hs).bind (yields_pure _)

/-- Where a change is planned by an operation on the state, the service gives what the operation
gives. -/
theorem yields_planned (hs : s.Valid) {c : Change} {next? : Except FeeError FeeState}
    {event : FeeState → Event}
    (hplan : c.plan (some s) = next?.map fun next => ⟨event next, next⟩) (h : next? = .ok next) :
    (change c).Yields ⟨.ready s.tables, l⟩ next := by
  rw [h] at hplan
  exact ⟨_, change_of_plan_ok hs hplan⟩

theorem fails_planned (hs : s.Valid) {c : Change} {next? : Except FeeError FeeState}
    {event : FeeState → Event}
    (hplan : c.plan (some s) = next?.map fun next => ⟨event next, next⟩) (h : next? = .error e) :
    (change c).Fails ⟨.ready s.tables, l⟩ e := by
  rw [h] at hplan
  exact fails_change_of_plan hs.load hplan

/-- The new percent has a text, since it lies in the range. -/
theorem yields_setPercent (hs : s.Valid) (h : s.setPercent caller text = .ok next) :
    ∃ written, (setPercent caller text).Yields ⟨.ready s.tables, l⟩ written := by
  obtain ⟨written, hwritten⟩ := (hs.setPercent h).percentText
  have hchange := yields_planned (l := l) hs (Change.plan_setPercent s caller text) h
  exact ⟨written, hchange.bind (yields_ofExcept hwritten)⟩

theorem fails_setPercent (hs : s.Valid) (h : s.setPercent caller text = .error e) :
    (setPercent caller text).Fails ⟨.ready s.tables, l⟩ e :=
  (fails_planned hs (Change.plan_setPercent s caller text) h).bind

theorem yields_addToken (hs : s.Valid) (h : s.addToken id = .ok next) :
    (addToken id).Yields ⟨.ready s.tables, l⟩ next.tokens.toList :=
  (yields_planned hs (Change.plan_addToken s id) h).bind (yields_pure _)

theorem fails_addToken (hs : s.Valid) (h : s.addToken id = .error e) :
    (addToken id).Fails ⟨.ready s.tables, l⟩ e :=
  (fails_planned hs (Change.plan_addToken s id) h).bind

theorem yields_removeToken (hs : s.Valid) (h : s.removeToken id = .ok next) :
    (removeToken id).Yields ⟨.ready s.tables, l⟩ next.tokens.toList :=
  (yields_planned hs (Change.plan_removeToken s id) h).bind (yields_pure _)

theorem fails_removeToken (hs : s.Valid) (h : s.removeToken id = .error e) :
    (removeToken id).Fails ⟨.ready s.tables, l⟩ e :=
  (fails_planned hs (Change.plan_removeToken s id) h).bind

end

end Service

namespace FeeState

section
variable {caller text : String} {tokens : List String} {p : Int}

theorem start_eq_make (h : Percent.parse text = .ok p) :
    start caller tokens (some text) = make caller p (.ofList tokens) := by
  simp only [start, parseStandard, h, bind, Except.bind]
  rfl

/-- With a standard percent that can be read, a fee state is made for any account and any tokens. -/
theorem start_of_isValid (h : Percent.parse text = .ok p)
    (hcaller : AccountId.isValid caller = true)
    (htokens : ∀ id ∈ tokens, AccountId.isValid id = true) :
    start caller tokens (some text) = .ok ⟨caller, p, .ofList tokens⟩ := by
  rw [start_eq_make h]
  refine make_eq_ok_iff.2 ⟨rfl, hcaller, Percent.parse_range h, ?_⟩
  intro id hid
  exact htokens id (TokenSet.mem_ofList.1 hid)

theorem start_of_not_isValid (h : Percent.parse text = .ok p)
    (hcaller : ¬AccountId.isValid caller = true) (tokens : List String) :
    ∃ reason, start caller tokens (some text) = .error (.account reason) := by
  rw [start_eq_make h, make_eq]
  cases hcheck : AccountId.check caller with
  | ok id => exact absurd (AccountId.check_eq_ok_iff.1 hcheck).2 hcaller
  | error reason =>
      have howner : checkAccount caller = .error (.account reason) :=
        Except.mapError_eq_error_iff.2 ⟨reason, hcheck, rfl⟩
      exact ⟨reason, Except.bind_eq_error_iff.2 (.inl howner)⟩

end

end FeeState

/-- An amount that is not negative always has a fee. -/
theorem FeeState.fee_of_nonneg (s : FeeState) (t : Transfer) (h : 0 ≤ t.amount) :
    ∃ value, s.fee t = .ok value := by
  rw [fee]
  split
  · exact ⟨_, feeOf_of_nonneg h⟩
  · exact ⟨0, rfl⟩

namespace Http

/-- On the storage `s` the answer has the given status. -/
def AnswersWith (status : Nat) (answer : Storage → Exchange) (s : Storage) : Prop :=
  (answer s).response.status = status

section
variable {work : Work Response} {refuse : FeeError → Refusal} {s : Storage} {status : Nat}

theorem answersWith_of_yields {response : Response} (h : work.Yields ⟨s, []⟩ response)
    (hstatus : response.status = status) : AnswersWith status (serve work refuse) s := by
  rw [AnswersWith, response_serve h.commit, hstatus]

theorem answersWith_of_fails {e : FeeError} (h : work.Fails ⟨s, []⟩ e)
    (hstatus : (refuse e).status = status) : AnswersWith status (serve work refuse) s := by
  simp only [AnswersWith, serve, h.commit, ← hstatus]
  rfl

end

/-! ## The status of a call -/

/-- The status that a call is answered with, from what the tables hold. -/
def Call.status (t : Tables) : Call → Nat
  | .establish caller _ =>
    if t.fees.isSome then 409 else if AccountId.isValid caller then 201 else 400
  | .fee _ | .percentText | .listTokens => if t.fees.isSome then 200 else 409
  | .setPercent caller form =>
    match t.fees with
    | none => 409
    | some row =>
      if caller ≠ row.owner then 403
      else match Percent.parse form.percent with
        | .ok _ => 200
        | .error _ => 400
  | .addToken form => if t.fees.isNone ∨ form.token ∈ t.tokens then 409 else 201
  | .removeToken id => if t.fees.isNone then 409 else if id ∈ t.tokens then 200 else 404

/-- No call is to be answered with the status of a fault of the server. -/
theorem Call.status_le (t : Tables) (call : Call) : call.status t ≤ 409 := by
  cases call <;> simp only [status] <;> (repeat' split) <;> decide

variable {settings : Settings} {call : Call}

/-- On fresh tables only creating the fee state gets anywhere, and it does so unless its caller is
no account. -/
theorem Call.answersWith_fresh {p : Int}
    (hstandard : Percent.parse settings.standardPercent = .ok p) (hcall : call.InOrder) :
    AnswersWith (call.status .fresh) (call.answer settings) (.ready .fresh) := by
  have hload : Tables.fresh.load = .ok none := rfl
  cases call with
  | establish caller form =>
      have houtcome := Change.outcome_fresh caller form.tokens (some settings.standardPercent)
      by_cases hcaller : AccountId.isValid caller = true
      · have hstart := FeeState.start_of_isValid hstandard hcaller hcall
        obtain ⟨text, htext⟩ := (FeeState.valid_of_start hstart).1.percentText
        rw [hstart] at houtcome
        refine answersWith_of_yields (.bind (Service.yields_change houtcome) fun d =>
          .bind (yields_record _ d) fun d => .bind (yields_ofExcept htext d) (yields_pure _)) ?_
        simp [Call.status, Tables.fresh, hcaller, Response.ofJson]
      · obtain ⟨reason, hstart⟩ :=
          FeeState.start_of_not_isValid hstandard hcaller form.tokens
        rw [hstart] at houtcome
        refine answersWith_of_fails (.bind (Service.fails_change houtcome)) ?_
        simp [Call.status, Tables.fresh, hcaller, Refusal.warned]
  | fee form => exact answersWith_of_fails (.bind (.bind Service.fails_loadState_fresh)) rfl
  | percentText => exact answersWith_of_fails (.bind (.bind Service.fails_loadState_fresh)) rfl
  | listTokens => exact answersWith_of_fails (.bind (.bind Service.fails_loadState_fresh)) rfl
  | setPercent caller form =>
      exact answersWith_of_fails (.bind (.bind (Service.fails_change_of_plan hload rfl))) rfl
  | addToken form =>
      exact answersWith_of_fails (.bind (.bind (Service.fails_change_of_plan hload rfl))) rfl
  | removeToken id =>
      exact answersWith_of_fails (.bind (.bind (Service.fails_change_of_plan hload rfl))) rfl

/-- On the rows of a valid state each call is answered by what the operation on this state comes to.
-/
theorem Call.answersWith_valid {s : FeeState} (hs : s.Valid) (hcall : call.InOrder) :
    AnswersWith (call.status s.tables) (call.answer settings) (.ready s.tables) := by
  cases call with
  | establish caller form =>
      exact answersWith_of_fails (.bind (Service.fails_change_of_plan hs.load rfl)) rfl
  | fee form =>
      obtain ⟨value, hvalue⟩ := s.fee_of_nonneg form.transfer (Int.natCast_nonneg _)
      exact answersWith_of_yields (.bind (Service.yields_fee hs hvalue) (yields_pure _)) rfl
  | percentText =>
      obtain ⟨text, htext⟩ := hs.percentText
      exact answersWith_of_yields (.bind (Service.yields_percentText hs htext) (yields_pure _)) rfl
  | listTokens =>
      exact answersWith_of_yields (.bind (Service.yields_listTokens hs) (yields_pure _)) rfl
  | setPercent caller form =>
      by_cases hcaller : caller = s.owner
      · cases hparse : Percent.parse form.percent with
        | ok p =>
            have hset : s.setPercent caller form.percent = .ok { s with percent := p } :=
              FeeState.setPercent_eq_ok_iff.2 ⟨hcaller, p, hparse, rfl⟩
            obtain ⟨written, hwork⟩ := Service.yields_setPercent (l := []) hs hset
            refine answersWith_of_yields (.bind hwork fun d => .bind (yields_record _ d)
              (yields_pure _)) ?_
            simp [Call.status, FeeState.tables, hcaller, hparse, Response.ofJson]
        | error reason =>
            have hset := FeeState.setPercent_of_parse_error hcaller hparse
            refine answersWith_of_fails (.bind (Service.fails_setPercent hs hset)) ?_
            simp [Call.status, FeeState.tables, hcaller, hparse, Refusal.warned]
      · have hset := FeeState.setPercent_of_ne_owner hcaller form.percent
        refine answersWith_of_fails (.bind (Service.fails_setPercent hs hset)) ?_
        simp [Call.status, FeeState.tables, hcaller, Refusal.warned]
  | addToken form =>
      by_cases hid : form.token ∈ s.tokens
      · have hadd := FeeState.addToken_of_mem hcall hid
        refine answersWith_of_fails (.bind (Service.fails_addToken hs hadd)) ?_
        simp [Call.status, FeeState.tables, hid, Refusal.warned]
      · have hadd := FeeState.addToken_eq_ok_iff.2 ⟨hcall, hid, rfl⟩
        refine answersWith_of_yields (.bind (Service.yields_addToken hs hadd) fun d =>
          .bind (yields_record _ d) (yields_pure _)) ?_
        simp [Call.status, FeeState.tables, hid, Response.ofJson]
  | removeToken id =>
      by_cases hid : id ∈ s.tokens
      · have hremove := FeeState.removeToken_eq_ok_iff.2 ⟨hid, rfl⟩
        refine answersWith_of_yields (.bind (Service.yields_removeToken hs hremove) fun d =>
          .bind (yields_record _ d) (yields_pure _)) ?_
        simp [Call.status, FeeState.tables, hid, Response.ofJson]
      · have hremove := FeeState.removeToken_of_not_mem hid
        refine answersWith_of_fails (.bind (Service.fails_removeToken hs hremove)) ?_
        simp [Call.status, FeeState.tables, hid, Refusal.warned]

/-- The tokens are listed as they are stored. -/
theorem handle_listTokens {s : FeeState} {r : Request} (hs : s.Valid)
    (hcall : r.call? = some .listTokens) (settings : Settings) :
    let listed := handle settings r (.ready s.tables)
    listed.response.status = 200 ∧
      listed.response.body = .json (TokensAnswer.ofList s.tokens.toList).toJson :=
  handle_of_answer hcall (response_serve
    (Work.Yields.commit (.bind (Service.yields_listTokens hs) (Work.yields_pure _))))

/-- **The status law.** After any history of requests, steps of the service and setup commands on
fresh tables, a request that comes to a call is answered with the status of the call, and that is
never 500. -/
theorem status_of_call {history : List Action} (hraw : ∀ a ∈ history, a.isRaw = false)
    {p : Int} (hstandard : Percent.parse settings.standardPercent = .ok p) {r : Request}
    (hcall : r.call? = some call) :
    ∃ t, Action.afterAll history (.ready .fresh) = .ready t ∧
      (handle settings r (.ready t)).response.status = call.status t ∧
      (handle settings r (.ready t)).response.status ≠ 500 := by
  obtain ⟨t, ht⟩ := Action.ready_afterAll hraw .fresh
  have hsound : t.Sound := by
    have hrows := Action.sound_afterAll hraw (s := .ready .fresh) Tables.sound_fresh
    rwa [ht] at hrows
  have hinOrder := Call.inOrder_of_call? hcall
  have hstatus : (handle settings r (.ready t)).response.status = call.status t := by
    rw [handle_of_call settings hcall]
    rcases hsound.cases with rfl | ⟨s, hs, rfl⟩
    · exact Call.answersWith_fresh hstandard hinOrder
    · exact Call.answersWith_valid hs hinOrder
  refine ⟨t, ht, hstatus, ?_⟩
  rw [hstatus]
  exact Nat.ne_of_lt (Nat.lt_of_le_of_lt (call.status_le t) (by decide))

/-- The setup command creates the fee state, and a request removes the only token. -/
theorem status_of_call_removal :
    let history : List Action := [.setup {} ["--owner", "alice.near", "usdt.near"]]
    let r : Request := ⟨"http://localhost", "DELETE", "/api/v1/fees/tokens/usdt.near", [], ""⟩
    let t : Tables := ⟨some ⟨"alice.near", 500⟩, .ofList ["usdt.near"]⟩
    (∀ a ∈ history, a.isRaw = false) ∧ Percent.parse ({} : Settings).standardPercent = .ok 500 ∧
      r.call? = some (.removeToken "usdt.near") ∧
      Action.afterAll history (.ready .fresh) = .ready t ∧
      (handle {} r (.ready t)).response.status = 200 := by
  intro history r t
  have hraw : ∀ a ∈ history, a.isRaw = false := by decide
  have hstandard : Percent.parse ({} : Settings).standardPercent = .ok 500 := rfl
  have hroute : Route.ofRequest ⟨"http://localhost", "DELETE", "/api/v1/fees/tokens/usdt.near", [],
      ""⟩ = .endpoint (.removeToken "usdt.near") := by decide
  have hcall : r.call? = some (.removeToken "usdt.near") := congrArg (Route.call? r) hroute
  have hhistory : Action.afterAll history (.ready .fresh) = .ready t := rfl
  refine ⟨hraw, hstandard, hcall, hhistory, ?_⟩
  obtain ⟨t', ht', hstatus, -⟩ := status_of_call hraw hstandard hcall
  obtain rfl : t = t' := Storage.ready.inj (hhistory.symm.trans ht')
  exact hstatus

end Http

end TransferFees
