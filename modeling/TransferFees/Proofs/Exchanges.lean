import TransferFees.Http.Api
import TransferFees.Proofs.Effects

/-!
# What a request stores

A request stores something only if it leads to an endpoint that asks for a change, is in order, and
is granted: then that one change is made (`Http.handle_effect`). An endpoint writes first and
answers afterwards, so the answer could still go wrong. It does not: the answers of a success have a
status below 300, and everything in them can be written. All refusals have one from 300 on, so the
status tells whether the change was made (`Http.Carries.made`).
-/

namespace TransferFees

open Work

namespace Json

/-- Only objects have fields. -/
theorem isSome_object? {name : String} {v w : Json} (h : v.field? name = some w) :
    v.object?.isSome := by
  obtain ⟨fields, hfields, -⟩ := Option.bind_eq_some_iff.1 h
  rw [hfields]
  rfl

theorem areWritable_map_text (items : List String) : areWritable (items.map .text) = true := by
  induction items with
  | nil => rfl
  | cons s rest ih => rw [List.map_cons, areWritable, isWritable, Bool.true_and, ih]

/-- Texts can always be written. Halves of characters, which cannot, are no texts. -/
theorem isWritable_texts (items : List String) : (texts items).isWritable = true := by
  rw [texts, isWritable, areWritable_map_text]

end Json

theorem StateAnswer.isWritable_toJson (a : StateAnswer) : a.toJson.isWritable = true := by
  simp [toJson, Json.isWritable, Json.fieldsWritable, Json.isWritable_texts]

theorem TokensAnswer.isWritable_toJson (a : TokensAnswer) : a.toJson.isWritable = true := by
  simp [toJson, Json.isWritable, Json.fieldsWritable, Json.isWritable_texts]

theorem PercentAnswer.isWritable_toJson (a : PercentAnswer) : a.toJson.isWritable = true := rfl

namespace Checked

variable {α β : Type}

theorem inside_eq_ok_iff {place : Place} {c : Checked α} {a : α} :
    c.inside place = .ok a ↔ c = .ok a := Except.mapError_eq_ok_iff

/-- Two checks succeed together if each does; that their issues are put together matters for
failures only. -/
theorem both_eq_ok_iff {x : Checked α} {y : Checked β} {a : α} {b : β} :
    x.both y = .ok (a, b) ↔ x = .ok a ∧ y = .ok b := by
  cases x <;> cases y <;> simp [both]

end Checked

namespace Http

/-! ## Where a request leads -/

/-- Where a request leads to an endpoint, its method is one of the resource that its path names. -/
theorem Route.methods_of_endpoint {r : Request} {e : Endpoint}
    (h : Route.ofRequest r = .endpoint e) :
    ∃ resource, Resource.ofPath? (Text.PercentEncoding.decode r.rawPath) = some resource ∧
      (r.method, e) ∈ resource.methods := by
  delta Route.ofRequest at h
  dsimp only at h
  split at h
  · rename_i resource hresource
    split at h
    · rename_i method e' hfind
      cases h
      have hmethod := List.find?_some hfind
      obtain rfl : method = r.method := of_decide_eq_true hmethod
      exact ⟨resource, hresource, List.mem_of_find?_eq_some hfind⟩
    · cases h
  · split at h <;> cases h

/-- Where a request leads does not depend on its headers. -/
theorem Route.ofRequest_headers (r : Request) (headers : List (String × String)) :
    Route.ofRequest { r with headers } = Route.ofRequest r := by
  have hpath : ({ r with headers } : Request).rawPath = r.rawPath := rfl
  have hlocation : ∀ path, location { r with headers } path = location r path := fun _ => rfl
  delta Route.ofRequest
  simp only [hpath, hlocation]

/-! ## The change that a request asks for -/

/-- The change that a request to an endpoint asks for, if it asks for one and is in order. -/
def Endpoint.change? (settings : Settings) (r : Request) : Endpoint → Option Change
  | .establish =>
    (r.intake r.caller EstablishForm.ofObject).toOption.map fun (caller, form) =>
      .establish caller form.tokens (some settings.standardPercent)
  | .setPercent =>
    (r.intake r.caller PercentForm.ofObject).toOption.map fun (caller, form) =>
      .setPercent caller form.percent
  | .addToken =>
    (r.intake (.ok ()) TokenForm.ofObject).toOption.map fun (_, form) => .addToken form.token
  | .removeToken id => some (.removeToken id)
  | _ => none

/-- The change that is asked for where a request leads. -/
def Route.change? (settings : Settings) (r : Request) : Route → Option Change
  | .endpoint e => e.change? settings r
  | _ => none

/-- The change that a request asks for, if it asks for one and is in order. -/
def Request.change? (settings : Settings) (r : Request) : Option Change :=
  (Route.ofRequest r).change? settings r

theorem readContent_eq_ok {β : Type} {ofObject : Json → Checked β} {content : Content} {b : β}
    (h : readContent ofObject content = .ok b) : ∃ v, content = .value v ∧ ofObject v = .ok b := by
  have hinside := Checked.inside_eq_ok_iff.1 h
  cases content with
  | value v =>
      dsimp only at hinside
      split at hinside
      · exact ⟨v, rfl, hinside⟩
      · cases hinside
  | _ => cases hinside

/-- Where a request is in order, what is checked before the body has passed, and the form was read
from a JSON value. -/
theorem Request.intake_eq_ok {α β : Type} {r : Request} {before : Checked α}
    {ofObject : Json → Checked β} {a : α} {b : β} (h : r.intake before ofObject = .ok (a, b)) :
    before = .ok a ∧ ∃ v, r.content = .value v ∧ ofObject v = .ok b := by
  rw [Request.intake] at h
  split at h
  · cases h
  · cases h
  · obtain ⟨hbefore, hcontent⟩ := Checked.both_eq_ok_iff.1 (Except.mapError_eq_ok_iff.1 h)
    exact ⟨hbefore, readContent_eq_ok hcontent⟩

/-- A body that is sent as JSON and is read as a value comes to this value. -/
theorem Request.content_of_readOctets {r : Request} {v : Json}
    (htype : r.header? "content-type" = some "application/json")
    (hread : Json.readOctets r.body.toList = .ok v) : r.content = .value v := by
  have hbody : r.body.toList ≠ [] := by
    intro hnil
    rw [hnil] at hread
    cases hread
  have hjson : isJsonType ((r.header? "content-type").getD "") = true := by
    rw [htype]
    decide
  simp only [content, hbody, if_false, hjson, if_true, hread]

/-- What an object in the body comes to is up to its form alone. -/
theorem Request.intake_of_value {α β : Type} {r : Request} {v : Json}
    (hcontent : r.content = .value v) (hobject : v.object?.isSome) (before : Checked α)
    (ofObject : Json → Checked β) :
    r.intake before ofObject =
      (before.both ((ofObject v).inside (.field "body"))).mapError .invalid := by
  simp only [Request.intake, hcontent, readContent, hobject, if_true]

/-- What is made of a request that is in order is made of what was read from it. -/
theorem Request.exists_of_intake_map {α β γ : Type} {r : Request} {before : Checked α}
    {ofObject : Json → Checked β} {make : α × β → γ} {made : γ}
    (h : (r.intake before ofObject).toOption.map make = some made) :
    ∃ carried, r.intake before ofObject = .ok carried ∧ make carried = made := by
  cases hintake : r.intake before ofObject with
  | error e =>
      rw [hintake] at h
      cases h
  | ok carried =>
      rw [hintake] at h
      cases h
      exact ⟨carried, rfl, rfl⟩

section
variable {settings : Settings} {r : Request} {c : Change} {caller : String}

theorem Request.endpoint_of_change? (h : r.change? settings = some c) :
    ∃ e, Route.ofRequest r = .endpoint e ∧ e.change? settings r = some c := by
  rw [change?] at h
  cases hroute : Route.ofRequest r with
  | endpoint e =>
      rw [hroute] at h
      exact ⟨e, rfl, h⟩
  | _ =>
      rw [hroute] at h
      cases h

/-- A change that is made in the name of someone is asked for in the name of the caller. -/
theorem Request.caller_of_change? (h : r.change? settings = some c)
    (hc : c.caller? = some caller) : r.caller = .ok caller := by
  obtain ⟨e, -, he⟩ := endpoint_of_change? h
  cases e with
  | establish =>
      obtain ⟨carried, hintake, rfl⟩ := exists_of_intake_map he
      cases hc
      exact (intake_eq_ok hintake).1
  | setPercent =>
      obtain ⟨carried, hintake, rfl⟩ := exists_of_intake_map he
      cases hc
      exact (intake_eq_ok hintake).1
  | addToken =>
      obtain ⟨carried, -, rfl⟩ := exists_of_intake_map he
      cases hc
  | removeToken id =>
      cases he
      cases hc
  | _ => cases he

/-- Only a request for another percent asks for one. -/
theorem Request.route_of_setPercent {text : String}
    (h : r.change? settings = some (.setPercent caller text)) :
    Route.ofRequest r = .endpoint .setPercent := by
  obtain ⟨e, hroute, he⟩ := endpoint_of_change? h
  rw [hroute]
  cases e with
  | setPercent => rfl
  | establish =>
      obtain ⟨carried, -, hc⟩ := exists_of_intake_map he
      cases hc
  | addToken =>
      obtain ⟨carried, -, hc⟩ := exists_of_intake_map he
      cases hc
  | _ => cases he

end

/-! ## Endpoints -/

/-- An answer of a success, which can be written. -/
def Response.Granted (r : Response) : Prop := r.status < 300 ∧ r.body.isWritable = true

/-- Either nothing is stored, or the change is made and the answer is that of a success. -/
def Serves (c? : Option Change) (answer : Storage → Exchange) : Prop :=
  ∀ s, (answer s).storage = s ∨
    (answer s).response.Granted ∧ ∃ c, c? = some c ∧ c.Made s (answer s).storage

section
variable {c? : Option Change} {c : Change} {work : Work Response} {refuse : FeeError → Refusal}

theorem storage_serve (s : Storage) : (serve work refuse s).storage = (work.commit s).storage := by
  simp only [serve]
  split <;> rfl

theorem response_serve {s : Storage} {response : Response}
    (h : (work.commit s).result = .ok response) : (serve work refuse s).response = response := by
  simp only [serve, h]

theorem serves_still (response : Response) : Serves c? (.still response) := fun _ => .inl rfl

/-- A question is served: nothing is stored. -/
theorem serves_question (hw : work.Quiet) : Serves c? (serve work refuse) := by
  intro s
  rw [storage_serve]
  exact .inl (hw.commit s)

/-- Work that stores like a change, and grants what succeeds, is served. -/
theorem serves_change (hw : work.StoresLike (Service.change c))
    (hgranted : work.Gives Response.Granted) : Serves (some c) (serve work refuse) := by
  intro s
  rw [storage_serve]
  rcases hw.made s with hsame | ⟨⟨response, hok⟩, hmade⟩
  · exact .inl hsame
  · rw [response_serve hok]
    exact .inr ⟨hgranted.commit hok, c, rfl, hmade⟩

/-- A request that is turned down beforehand stores nothing, whatever it would have asked for. -/
theorem serves_proceed {α : Type} {intake : Except IntakeError α} {next : α → Storage → Exchange}
    (h : ∀ carried, intake = .ok carried → Serves c? (next carried)) :
    Serves c? (proceed intake next) := by
  intro s
  cases hintake : intake with
  | ok carried => exact h carried hintake s
  | error e => exact .inl rfl

end

theorem quiet_granted (message : String) : (granted message).Quiet := quiet_record _

theorem granted_ofJson {status : Nat} {v : Json} (hstatus : status < 300)
    (hv : v.isWritable = true) : (Response.ofJson status v).Granted := ⟨hstatus, hv⟩

/-- The answer is that of a unit of work that stores like the change. Its successes are granted, and
no refusal looks like one. -/
def Carries (c : Change) (answer : Storage → Exchange) : Prop :=
  ∃ work refuse, answer = serve work refuse ∧ work.StoresLike (Service.change c) ∧
    work.Gives Response.Granted ∧ ∀ e, 300 ≤ (refuse e).status

namespace Carries

variable {c : Change} {answer : Storage → Exchange}

theorem serves (h : Carries c answer) : Serves (some c) answer := by
  obtain ⟨work, refuse, rfl, hw, hgranted, -⟩ := h
  exact serves_change hw hgranted

/-- The status of a success is told only where the change is made. -/
theorem made (h : Carries c answer) {s : Storage} (hstatus : (answer s).response.status < 300) :
    c.Made s (answer s).storage := by
  obtain ⟨work, refuse, rfl, hw, -, hrefuse⟩ := h
  cases hresult : (work.commit s).result with
  | ok response =>
      rw [storage_serve]
      exact hw.made_of_ok hresult
  | error e =>
      simp only [serve, hresult, Refusal.response, Response.detail, Response.ofJson] at hstatus
      exact absurd hstatus (Nat.not_lt.2 (hrefuse e))

end Carries

/-- Each of the four endpoints for changes carries the change of its form: the rest of its work is
quiet and its answer a success. -/
theorem establish_carries (settings : Settings) (caller : String) (form : EstablishForm) :
    Carries (.establish caller form.tokens (some settings.standardPercent))
      (establish settings caller form) := by
  refine ⟨_, _, rfl, ?_, ?_, fun e => ?_⟩
  · refine (StoresLike.refl _).bind fun state => (quiet_granted _).bind fun _ => ?_
    exact (quiet_ofExcept _).bind fun _ => quiet_pure _
  · refine gives_bind fun state => gives_bind fun _ => gives_bind fun percent => gives_pure ?_
    exact granted_ofJson (by decide) (StateAnswer.isWritable_toJson _)
  · cases e <;> exact Nat.le_of_ble_eq_true rfl

theorem setPercent_carries (caller : String) (form : PercentForm) :
    Carries (.setPercent caller form.percent) (setPercent caller form) := by
  refine ⟨_, _, rfl, ?_, ?_, fun e => ?_⟩
  · refine (Service.storesLike_setPercent _ _).bind fun percent => ?_
    exact (quiet_granted _).bind fun _ => quiet_pure _
  · refine gives_bind fun percent => gives_bind fun _ => gives_pure ?_
    exact granted_ofJson (by decide) (PercentAnswer.isWritable_toJson _)
  · cases e <;> exact Nat.le_of_ble_eq_true rfl

theorem addToken_carries (form : TokenForm) : Carries (.addToken form.token) (addToken form) := by
  refine ⟨_, _, rfl, ?_, ?_, fun e => ?_⟩
  · refine (Service.storesLike_addToken _).bind fun tokens => ?_
    exact (quiet_granted _).bind fun _ => quiet_pure _
  · refine gives_bind fun tokens => gives_bind fun _ => gives_pure ?_
    exact granted_ofJson (by decide) (TokensAnswer.isWritable_toJson _)
  · cases e <;> exact Nat.le_of_ble_eq_true rfl

theorem removeToken_carries (id : String) : Carries (.removeToken id) (removeToken id) := by
  refine ⟨_, _, rfl, ?_, ?_, fun e => ?_⟩
  · refine (Service.storesLike_removeToken _).bind fun tokens => ?_
    exact (quiet_granted _).bind fun _ => quiet_pure _
  · refine gives_bind fun tokens => gives_bind fun _ => gives_pure ?_
    exact granted_ofJson (by decide) (TokensAnswer.isWritable_toJson _)
  · cases e <;> exact Nat.le_of_ble_eq_true rfl

theorem proceed_of_ok {α : Type} {intake : Except IntakeError α} {carried : α}
    (h : intake = .ok carried) (next : α → Storage → Exchange) :
    proceed intake next = next carried := by
  funext s
  simp only [proceed, h]

/-- An endpoint that is asked for a change carries it. -/
theorem Endpoint.carries {settings : Settings} {r : Request} {e : Endpoint} {c : Change}
    (h : e.change? settings r = some c) : Carries c (e.answer settings r) := by
  cases e with
  | establish =>
      obtain ⟨carried, hintake, rfl⟩ := Request.exists_of_intake_map h
      rw [answer, proceed_of_ok hintake]
      exact establish_carries settings carried.1 carried.2
  | setPercent =>
      obtain ⟨carried, hintake, rfl⟩ := Request.exists_of_intake_map h
      rw [answer, proceed_of_ok hintake]
      exact setPercent_carries carried.1 carried.2
  | addToken =>
      obtain ⟨carried, hintake, rfl⟩ := Request.exists_of_intake_map h
      rw [answer, proceed_of_ok hintake]
      exact addToken_carries carried.2
  | removeToken id =>
      cases h
      exact removeToken_carries id
  | _ => cases h

/-- **Every endpoint stores nothing or makes the change that was asked for**, by cases on the
endpoints. -/
theorem Endpoint.answer_serves (settings : Settings) (r : Request) (e : Endpoint) :
    Serves (e.change? settings r) (e.answer settings r) := by
  cases e with
  | root => exact serves_still _
  | health => exact serves_still _
  | establish =>
      refine serves_proceed fun carried h => ?_
      simp only [change?, h]
      exact (establish_carries settings carried.1 carried.2).serves
  | fee =>
      refine serves_proceed fun carried _ => ?_
      exact serves_question ((Service.quiet_fee _).bind fun _ => quiet_pure _)
  | percentText => exact serves_question (Service.quiet_percentText.bind fun _ => quiet_pure _)
  | setPercent =>
      refine serves_proceed fun carried h => ?_
      simp only [change?, h]
      exact (setPercent_carries carried.1 carried.2).serves
  | listTokens => exact serves_question (Service.quiet_listTokens.bind fun _ => quiet_pure _)
  | addToken =>
      refine serves_proceed fun carried h => ?_
      simp only [change?, h]
      exact (addToken_carries carried.2).serves
  | removeToken id => exact (removeToken_carries id).serves

/-! ## Requests -/

/-- So does every request, for those that lead elsewhere store nothing. -/
theorem answer_serves (settings : Settings) (r : Request) :
    Serves (r.change? settings) (answer settings r) := by
  intro s
  delta answer Request.change?
  cases Route.ofRequest r with
  | endpoint e => exact e.answer_serves settings r s
  | notAllowed allowed => exact .inl rfl
  | elsewhere location => exact .inl rfl
  | nowhere => exact .inl rfl

/-- **A request stores nothing, or it succeeds and its one change is made.** -/
theorem handle_effect (settings : Settings) (r : Request) (s : Storage) :
    (handle settings r s).storage = s ∨
      (handle settings r s).response.status < 300 ∧
        ∃ c, r.change? settings = some c ∧ c.Made s (handle settings r s).storage := by
  have hserved := answer_serves settings r s
  rw [handle]
  generalize answer settings r s = exchange at hserved
  split
  · exact .inl rfl
  · rcases hserved with hsame | ⟨⟨hstatus, hwritable⟩, hmade⟩
    · refine .inl ?_
      dsimp only
      split <;> exact hsame
    · refine .inr ?_
      simp only [hwritable, if_true]
      exact ⟨hstatus, hmade⟩

end Http

end TransferFees
