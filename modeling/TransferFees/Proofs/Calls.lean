import TransferFees.Proofs.Exchanges

/-!
# Calls

What is left of a request that leads to an endpoint of the fee state and is in order: what it asks
for, with the forms that were read from it. The caller and the form are then all that matters
(`Http.handle_of_call`). Such a request is no preflight, and whatever it is answered can be written,
so that the answer of the endpoint goes out as it is.
-/

namespace TransferFees

open Work

namespace Http

/-- What a request asks of the fee state once it has been found to be in order. -/
inductive Call where
  | establish (caller : String) (form : EstablishForm)
  | fee (form : FeeForm)
  | percentText
  | setPercent (caller : String) (form : PercentForm)
  | listTokens
  | addToken (form : TokenForm)
  | removeToken (id : String)

/-- How a call is answered. -/
def Call.answer (settings : Settings) : Call → Storage → Exchange
  | .establish caller form => Http.establish settings caller form
  | .fee form => Http.fee form
  | .percentText => Http.percentText
  | .setPercent caller form => Http.setPercent caller form
  | .listTokens => Http.listTokens
  | .addToken form => Http.addToken form
  | .removeToken id => Http.removeToken id

/-- The call of a request to an endpoint, if it is one of the fee state and the request is in
order. -/
def Endpoint.call? (r : Request) : Endpoint → Option Call
  | .root | .health => none
  | .establish =>
    (r.intake r.caller EstablishForm.ofObject).toOption.map fun (caller, form) =>
      .establish caller form
  | .fee => (r.intake (.ok ()) FeeForm.ofObject).toOption.map fun (_, form) => .fee form
  | .percentText => some .percentText
  | .setPercent =>
    (r.intake r.caller PercentForm.ofObject).toOption.map fun (caller, form) =>
      .setPercent caller form
  | .listTokens => some .listTokens
  | .addToken => (r.intake (.ok ()) TokenForm.ofObject).toOption.map fun (_, form) => .addToken form
  | .removeToken id => some (.removeToken id)

/-- The call of a request that leads somewhere. -/
def Route.call? (r : Request) : Route → Option Call
  | .endpoint e => e.call? r
  | _ => none

/-- The call of a request, if it leads to an endpoint of the fee state and is in order. -/
def Request.call? (r : Request) : Option Call := (Route.ofRequest r).call? r

section
variable {r : Request} {e : Endpoint} {call : Call}

theorem Request.endpoint_of_call? (h : r.call? = some call) :
    ∃ e, Route.ofRequest r = .endpoint e ∧ e.call? r = some call := by
  rw [call?] at h
  cases hroute : Route.ofRequest r with
  | endpoint e =>
      rw [hroute] at h
      exact ⟨e, rfl, h⟩
  | _ =>
      rw [hroute] at h
      cases h

/-! ## From the request to the call -/

/-- An endpoint answers a call by what was read from the request, and by nothing else of it. -/
theorem Endpoint.answer_of_call? (settings : Settings) (h : e.call? r = some call) :
    e.answer settings r = call.answer settings := by
  cases e with
  | root => cases h
  | health => cases h
  | percentText =>
      cases h
      rfl
  | listTokens =>
      cases h
      rfl
  | removeToken id =>
      cases h
      rfl
  | _ =>
      obtain ⟨carried, hintake, rfl⟩ := Request.exists_of_intake_map h
      exact proceed_of_ok hintake _

/-- No endpoint is asked for by the method of preflights. -/
theorem preflight?_of_endpoint (h : Route.ofRequest r = .endpoint e) : preflight? r = none := by
  obtain ⟨resource, -, hmethod⟩ := Route.methods_of_endpoint h
  have hoptions : r.method ≠ "OPTIONS" := by
    rintro hr
    rw [hr] at hmethod
    cases resource <;> simp [Resource.methods] at hmethod
  rw [preflight?, if_neg fun hr => hoptions hr.1]

/-! ## Answers that can be written -/

/-- An answer can be written if that of the work can. Refusals are plain texts of the program's own.
-/
theorem isWritable_serve {work : Work Response} {refuse : FeeError → Refusal} (s : Storage)
    (h : work.Gives fun response => response.body.isWritable = true) :
    (serve work refuse s).response.body.isWritable = true := by
  cases hresult : (work.commit s).result with
  | ok response =>
      rw [response_serve hresult]
      exact h.commit hresult
  | error e =>
      simp only [serve, hresult]
      rfl

/-- **No answer to a call fails to be written.** It holds the texts of the program and of what is
stored, and numbers of tokens. -/
theorem Call.isWritable_answer (settings : Settings) (call : Call) (s : Storage) :
    (call.answer settings s).response.body.isWritable = true := by
  cases call with
  | establish caller form =>
      refine isWritable_serve s ?_
      refine gives_bind fun state => gives_bind fun _ => gives_bind fun percent => gives_pure ?_
      exact StateAnswer.isWritable_toJson _
  | fee form => exact isWritable_serve s (gives_bind fun value => gives_pure rfl)
  | percentText => exact isWritable_serve s (gives_bind fun percent => gives_pure rfl)
  | setPercent caller form =>
      exact isWritable_serve s (gives_bind fun percent => gives_bind fun _ => gives_pure rfl)
  | listTokens =>
      refine isWritable_serve s (gives_bind fun tokens => gives_pure ?_)
      exact TokensAnswer.isWritable_toJson _
  | addToken form =>
      refine isWritable_serve s (gives_bind fun tokens => gives_bind fun _ => gives_pure ?_)
      exact TokensAnswer.isWritable_toJson _
  | removeToken id =>
      refine isWritable_serve s (gives_bind fun tokens => gives_bind fun _ => gives_pure ?_)
      exact TokensAnswer.isWritable_toJson _

/-- A request to an endpoint is answered by it, and only an answer that cannot be written is
replaced. -/
theorem handle_of_endpoint (settings : Settings) (h : Route.ofRequest r = .endpoint e)
    (s : Storage) :
    handle settings r s =
      let exchange := e.answer settings r s
      if exchange.response.body.isWritable then
        { exchange with response := exchange.response.withHeaders (originHeaders r) }
      else { exchange with response := .failed } := by
  have hanswer : answer settings r s = e.answer settings r s := by
    delta answer
    rw [h]
  simp only [handle, preflight?_of_endpoint h, hanswer]

theorem IntakeError.status_response (e : IntakeError) : 400 ≤ e.response.status := by
  cases e <;> exact Nat.le_of_ble_eq_true rfl

/-- A request to the fee state that comes to no call is turned down beforehand. -/
theorem Endpoint.answer_of_call?_eq_none (settings : Settings) (h : e.call? r = none)
    (he : e ≠ .root ∧ e ≠ .health) (s : Storage) :
    ∃ error : IntakeError, e.answer settings r s = .still error.response s := by
  have hproceed : ∀ {α : Type} {intake : Except IntakeError α} {make : α → Call}
      (next : α → Storage → Exchange), intake.toOption.map make = none →
        ∃ error : IntakeError, proceed intake next s = .still error.response s := by
    intro α intake make next hnone
    cases intake with
    | ok carried => cases hnone
    | error error => exact ⟨error, rfl⟩
  cases e with
  | root => exact absurd rfl he.1
  | health => exact absurd rfl he.2
  | percentText => cases h
  | listTokens => cases h
  | removeToken id => cases h
  | _ => exact hproceed _ h

/-- Where a request to the fee state is answered with the status of a success, it has come to a
call. -/
theorem Request.exists_call {settings : Settings} {s : Storage}
    (hroute : Route.ofRequest r = .endpoint e) (he : e ≠ .root ∧ e ≠ .health)
    (hstatus : (handle settings r s).response.status < 300) : ∃ call, r.call? = some call := by
  cases hcall : e.call? r with
  | some call =>
      refine ⟨call, ?_⟩
      rw [Request.call?, hroute]
      exact hcall
  | none =>
      obtain ⟨error, hanswer⟩ := Endpoint.answer_of_call?_eq_none settings hcall he s
      have herror := error.status_response
      rw [handle_of_endpoint settings hroute, hanswer] at hstatus
      dsimp only [Exchange.still] at hstatus
      split at hstatus
      · have hrefused : error.response.status < 300 := hstatus
        omega
      · have hfailed : 500 < 300 := hstatus
        omega

/-- **A request that asks for a change and is answered with the status of a success has made it.** -/
theorem handle_made {settings : Settings} {c : Change} (h : r.change? settings = some c)
    {s : Storage} (hstatus : (handle settings r s).response.status < 300) :
    c.Made s (handle settings r s).storage := by
  obtain ⟨e, hroute, hc⟩ := Request.endpoint_of_change? h
  rw [handle_of_endpoint settings hroute] at hstatus ⊢
  dsimp only at hstatus ⊢
  split at hstatus
  · rename_i hwritable
    rw [if_pos hwritable]
    exact (Endpoint.carries hc).made hstatus
  · have hfailed : 500 < 300 := hstatus
    exact absurd hfailed (by decide)

/-- **A request that comes to a call is answered as the call is**, but for the headers that let
another origin read the answer. -/
theorem handle_of_call (settings : Settings) (h : r.call? = some call) (s : Storage) :
    handle settings r s =
      { call.answer settings s with
        response := (call.answer settings s).response.withHeaders (originHeaders r) } := by
  obtain ⟨e, hroute, hcall⟩ := Request.endpoint_of_call? h
  rw [handle_of_endpoint settings hroute, Endpoint.answer_of_call? settings hcall]
  exact if_pos (call.isWritable_answer settings s)

/-- Status and body of the answer of a call reach whoever asks. -/
theorem handle_of_answer {settings : Settings} {s : Storage} {status : Nat} {body : Json}
    (h : r.call? = some call) (hanswer : (call.answer settings s).response = .ofJson status body) :
    (handle settings r s).response.status = status ∧
      (handle settings r s).response.body = .json body := by
  rw [handle_of_call settings h, hanswer]
  exact ⟨rfl, rfl⟩

/-- Where a change can be planned on the valid state that is stored, and its call is answered with
the status of a success, a request for it gets the answer, and what was planned is stored. -/
theorem handle_of_plan {settings : Settings} {state : FeeState} {c : Change} {plan : Plan}
    {status : Nat} {body : Json} (hcall : r.call? = some call)
    (hchange : r.change? settings = some c) (hstate : state.Valid)
    (hplan : c.plan (some state) = .ok plan)
    (hanswer : (call.answer settings (.ready state.tables)).response = .ofJson status body)
    (hstatus : status < 300) :
    let exchange := handle settings r (.ready state.tables)
    exchange.response.status = status ∧ exchange.response.body = .json body ∧
      exchange.storage = .ready plan.next.tables := by
  intro exchange
  obtain ⟨hsame, hbody⟩ := handle_of_answer hcall hanswer
  have hmade : c.Made (.ready state.tables) exchange.storage :=
    handle_made hchange (by rw [hsame]; exact hstatus)
  exact ⟨hsame, hbody, hmade.storage_of_plan hstate hplan⟩

end

end Http

/-! ## Forms in order -/

theorem AccountId.isValid_of_mapM_check {ids ids' : List String}
    (h : ids.mapM AccountId.check = .ok ids') : ∀ id ∈ ids', AccountId.isValid id = true := by
  induction ids generalizing ids' with
  | nil =>
      cases h
      exact nofun
  | cons id rest ih =>
      rw [List.mapM_cons] at h
      obtain ⟨first, hfirst, h⟩ := Except.bind_eq_ok_iff.1 h
      obtain ⟨others, hothers, h⟩ := Except.bind_eq_ok_iff.1 h
      cases h
      obtain ⟨rfl, hid⟩ := AccountId.check_eq_ok_iff.1 hfirst
      exact List.forall_mem_cons.2 ⟨hid, ih hothers⟩

namespace Checked

theorem required_eq_ok_iff {α : Type} {name : String} {check : Json → Checked α} {form : Json}
    {a : α} :
    required name check form = .ok a ↔ ∃ v, form.field? name = some v ∧ check v = .ok a := by
  rw [required, inside_eq_ok_iff]
  cases form.field? name with
  | some v => simp
  | none => simp [problem]

theorem accountIds_eq_ok {v : Json} {ids : List String} (h : accountIds v = .ok ids) :
    ∀ id ∈ ids, AccountId.isValid id = true := by
  obtain ⟨texts, -, h⟩ := Except.bind_eq_ok_iff.1 h
  split at h
  · rename_i checked hchecked
    cases h
    exact AccountId.isValid_of_mapM_check hchecked
  · cases h

/-- Where an account id was read, the value is its text. The other checks of the length repeat what
an account id has anyway. -/
theorem accountId_eq_ok_iff {v : Json} {id : String} :
    accountId v = .ok id ↔ v = .text id ∧ AccountId.isValid id = true := by
  rw [accountId, Except.bind_eq_ok_iff]
  constructor
  · rintro ⟨s, hs, h⟩
    have hv : v = .text s := by
      cases v <;> cases hs
      rfl
    split at h
    · cases h
    · split at h
      · cases h
      · split at h
        · rename_i checked hchecked
          cases h
          obtain ⟨rfl, hid⟩ := AccountId.check_eq_ok_iff.1 hchecked
          exact ⟨hv, hid⟩
        · cases h
  · rintro ⟨rfl, hid⟩
    refine ⟨id, rfl, ?_⟩
    have hcheck : AccountId.check id = .ok id := AccountId.check_eq_ok_iff.2 ⟨rfl, hid⟩
    simp only [AccountId.isValid, Bool.and_eq_true, decide_eq_true_eq] at hid
    rw [if_neg (Nat.not_lt.2 hid.1.1), if_neg (Nat.not_lt.2 hid.1.2), hcheck]
    rfl

end Checked

/-- No form gets in with a token that is no account id. -/
theorem EstablishForm.isValid_of_ofObject {v : Json} {form : EstablishForm}
    (h : ofObject v = .ok form) : ∀ id ∈ form.tokens, AccountId.isValid id = true := by
  obtain ⟨tokens, htokens, rfl⟩ := Except.map_eq_ok_iff.1 h
  rw [Checked.optional] at htokens
  split at htokens
  · exact Checked.accountIds_eq_ok (Checked.inside_eq_ok_iff.1 htokens)
  · cases htokens
    exact nofun

theorem TokenForm.isValid_of_ofObject {v : Json} {form : TokenForm} (h : ofObject v = .ok form) :
    AccountId.isValid form.token = true := by
  obtain ⟨token, htoken, rfl⟩ := Except.map_eq_ok_iff.1 h
  obtain ⟨field, -, hfield⟩ := Checked.required_eq_ok_iff.1 htoken
  exact (Checked.accountId_eq_ok_iff.1 hfield).2

namespace Http

/-- The account ids in the form of a call are account ids. -/
def Call.InOrder : Call → Prop
  | .establish _ form => ∀ id ∈ form.tokens, AccountId.isValid id = true
  | .addToken form => AccountId.isValid form.token = true
  | _ => True

/-- The ids of a call are in order, because its form was read. -/
theorem Call.inOrder_of_call? {r : Request} {call : Call} (h : r.call? = some call) :
    call.InOrder := by
  obtain ⟨e, -, hcall⟩ := Request.endpoint_of_call? h
  cases e with
  | root => cases hcall
  | health => cases hcall
  | percentText =>
      cases hcall
      trivial
  | listTokens =>
      cases hcall
      trivial
  | removeToken id =>
      cases hcall
      trivial
  | establish =>
      obtain ⟨carried, hintake, rfl⟩ := Request.exists_of_intake_map hcall
      obtain ⟨-, v, -, hform⟩ := Request.intake_eq_ok hintake
      exact EstablishForm.isValid_of_ofObject hform
  | addToken =>
      obtain ⟨carried, hintake, rfl⟩ := Request.exists_of_intake_map hcall
      obtain ⟨-, v, -, hform⟩ := Request.intake_eq_ok hintake
      exact TokenForm.isValid_of_ofObject hform
  | _ =>
      obtain ⟨carried, -, rfl⟩ := Request.exists_of_intake_map hcall
      trivial

end Http

end TransferFees
