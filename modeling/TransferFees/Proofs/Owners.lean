import Mathlib
import TransferFees.Proofs.AccountIds
import TransferFees.Proofs.Successes

/-!
# Owners and the header of the caller

Only the owner may set the percent, and the owner stays the same forever. A request tells who asks
in a header, and the text of a header is Latin-1. So who owns the fees can only be heard in requests
if the owner's id is Latin-1 (`Storage.exists_heeds_iff`).

Ids may hold decimal digits of any script, and few of them are Latin-1. An owner who came by a
request was named in a header then, and can be named again (`Http.isLatin1_of_establish`). But a
step of a session and the setup command take any id, and an owner with such digits is locked out
(`Action.other_digits_locked_out`).
-/

namespace TransferFees

open Text

/-! ## Latin-1 -/

/-- Every character takes one octet, as in a header. -/
def IsLatin1 (s : String) : Prop := ∀ c ∈ s.toList, c.toNat < 0x100

-- over the characters of the text, not over all characters
instance (s : String) : Decidable (IsLatin1 s) :=
  List.decidableBAll (fun c : Char => c.toNat < 0x100) s.toList

/-- What is left between blanks takes no other characters than there were. -/
theorem IsLatin1.strip {s : String} (h : IsLatin1 s) : IsLatin1 (strip s) := by
  have htrim : trimBy isBlank s.toList ⊆ s.toList := by
    intro c hc
    rw [trimBy, List.mem_reverse] at hc
    have hc := (List.dropWhile_sublist _).mem hc
    exact (List.dropWhile_sublist _).mem (List.mem_reverse.1 hc)
  intro c hc
  rw [Text.strip, String.toList_ofList] at hc
  exact h c (htrim hc)

/-! ## Requests for another percent -/

namespace Http

/-- The request asks for another percent, `value` is in its header of the caller, and its body is an
object that holds the percent as `text`. -/
structure Request.PutsPercent (r : Request) (value text : String) : Prop where
  endpoint : Route.ofRequest r = .endpoint .setPercent
  header : r.header? callerHeader.toLower = some value
  content : ∃ v, r.content = .value v ∧ v.field? "percent" = some (.text text)

namespace Request.PutsPercent

variable {r : Request} {value text : String} {settings : Settings} {s : Storage}
  {state : FeeState} {p : Int}

theorem intake (h : r.PutsPercent value text) (hlength : text.length ≤ 64) :
    r.intake r.caller PercentForm.ofObject = .ok (strip value, ⟨text⟩) := by
  obtain ⟨v, hcontent, hfield⟩ := h.content
  have hcaller : r.caller = .ok (strip value) := by rw [Request.caller, h.header]
  have htext : Checked.textUpTo PercentForm.greatestLength (.text text) = .ok text :=
    if_neg (Nat.not_lt.2 hlength)
  have hpercent := Checked.required_eq_ok_iff.2 ⟨_, hfield, htext⟩
  rw [r.intake_of_value hcontent (Json.isSome_object? hfield), hcaller, PercentForm.ofObject,
    hpercent]
  rfl

theorem change? (h : r.PutsPercent value text) (hlength : text.length ≤ 64) :
    r.change? settings = some (.setPercent (strip value) text) := by
  rw [Request.change?, h.endpoint, Route.change?, Endpoint.change?, h.intake hlength]
  rfl

/-- Such a request comes to a call in the name of the header's value, without the blanks around it.
-/
theorem call? (h : r.PutsPercent value text) (hlength : text.length ≤ 64) :
    r.call? = some (.setPercent (strip value) ⟨text⟩) := by
  rw [Request.call?, h.endpoint, Route.call?, Endpoint.call?, h.intake hlength]
  rfl

/-- Nobody else than the owner is answered with success. -/
theorem owner_of_status (h : r.PutsPercent value text) (hlength : text.length ≤ 64)
    (hs : s.Holds state) (hstatus : (handle settings r s).response.status < 300) :
    strip value = state.owner := by
  obtain ⟨plan, hplanned, -⟩ := (handle_made (h.change? hlength) hstatus).planned hs
  cases hplanned with
  | setPercent hcaller hparse => exact hcaller

/-- The owner is, for every percent that is in order. -/
theorem granted (h : r.PutsPercent value text) (hlength : text.length ≤ 64) (hs : s.Holds state)
    (howner : strip value = state.owner) (hparse : Percent.parse text = .ok p)
    (settings : Settings) :
    (handle settings r s).response.status = 200 ∧
      (handle settings r s).storage.Holds { state with percent := p } := by
  obtain ⟨hstate, rfl⟩ := hs
  have hset : state.setPercent (strip value) text = .ok { state with percent := p } :=
    FeeState.setPercent_eq_ok_iff.2 ⟨howner, p, hparse, rfl⟩
  have hnext := hstate.setPercent hset
  have hplan : (Change.setPercent (strip value) text).plan (some state) =
      .ok ⟨.percentSet p (strip value), { state with percent := p }⟩ := by
    rw [Change.plan_setPercent, hset]
    rfl
  obtain ⟨written, hwork⟩ := Service.yields_setPercent (l := []) hstate hset
  have hanswer : ((Call.setPercent (strip value) ⟨text⟩).answer settings
      (.ready state.tables)).response = .ofJson 200 (PercentAnswer.toJson ⟨written⟩) :=
    response_serve (Work.Yields.commit (.bind hwork fun d =>
      .bind (Work.yields_record _ d) (Work.yields_pure _)))
  obtain ⟨hstatus, -, hstorage⟩ := handle_of_plan (h.call? hlength) (h.change? hlength) hstate hplan
    hanswer (by omega)
  exact ⟨hstatus, hnext, hstorage⟩

end Request.PutsPercent

/-- An owner who came by a request has a Latin-1 id, as the header told it. -/
theorem isLatin1_of_establish {settings : Settings} {r : Request} {owner : String}
    {tokens : List String} {standard : Option String}
    (hc : r.change? settings = some (.establish owner tokens standard))
    (hheader : ∀ value ∈ r.header? callerHeader.toLower, IsLatin1 value) : IsLatin1 owner := by
  have hcaller := Request.caller_of_change? hc rfl
  rw [Request.caller] at hcaller
  cases hvalue : r.header? callerHeader.toLower with
  | none =>
      rw [hvalue] at hcaller
      cases hcaller
  | some value =>
      rw [hvalue] at hcaller
      cases hcaller
      exact (hheader value hvalue).strip

/-- A request for one percent that does not tell who asks. -/
def Request.forPercent : Request :=
  ⟨"http://localhost", "PUT", "/api/v1/fees/percent", [], "\x7b\"percent\":\"1\"\x7d"⟩

/-- The same request with the given header of the caller. -/
def Request.forPercentBy (value : String) : Request :=
  { forPercent with headers := [("content-type", "application/json"), (callerHeader, value)] }

theorem Request.putsPercent_forPercentBy (value : String) :
    (forPercentBy value).PutsPercent value "1" := by
  have hroute : Route.ofRequest (forPercentBy value) = .endpoint .setPercent := by
    rw [forPercentBy, Route.ofRequest_headers]
    decide
  have htype : (forPercentBy value).header? "content-type" = some "application/json" := by cbv
  have hread : Json.readOctets (forPercentBy value).body.toList =
      .ok (.object [("percent", .text "1")]) := by cbv
  exact ⟨hroute, by cbv, _, content_of_readOctets htype hread, rfl⟩

end Http

/-! ## Who is heard -/

/-- With `value` in the header of the caller, a request for a percent that is in order is answered
with status 200, and the percent is stored. -/
def Storage.Heeds (s : Storage) (value : String) : Prop :=
  ∀ (settings : Settings) (r : Http.Request) (text : String) (p : Int),
    r.PutsPercent value text → text.length ≤ 64 → Percent.parse text = .ok p →
      (Http.handle settings r s).response.status = 200 ∧
        (Http.handle settings r s).storage.rows.percent? = some p

section
variable {s : Storage} {state : FeeState}

/-- A value is heeded just if it names the owner. -/
theorem Storage.heeds_iff (hs : s.Holds state) {value : String} :
    s.Heeds value ↔ strip value = state.owner := by
  constructor
  · intro h
    have hone := Http.Request.putsPercent_forPercentBy value
    have hparse : Percent.parse "1" = .ok 100 := rfl
    obtain ⟨hstatus, -⟩ := h {} _ _ _ hone (by decide) hparse
    exact hone.owner_of_status (by decide) hs (by rw [hstatus]; decide)
  · intro howner settings r text p hr hlength hparse
    obtain ⟨hstatus, -, hstorage⟩ := hr.granted hlength hs howner hparse settings
    rw [hstorage]
    exact ⟨hstatus, rfl⟩

/-- **Some header makes the owner heard if and only if the owner's id is Latin-1.** -/
theorem Storage.exists_heeds_iff (hs : s.Holds state) :
    (∃ value, IsLatin1 value ∧ s.Heeds value) ↔ IsLatin1 state.owner := by
  constructor
  · rintro ⟨value, hvalue, hheeds⟩
    rw [← (heeds_iff hs).1 hheeds]
    exact hvalue.strip
  · intro howner
    exact ⟨state.owner, howner, (heeds_iff hs).2 (AccountId.strip_of_isValid hs.1.owner)⟩

end

namespace Action

/-- **Whether an owner is ever heard.** However the fee state was created and whatever happened
since, some header makes the owner heard if and only if the owner's id is Latin-1. -/
theorem owner_heard_iff {a : Action} {s : Storage} {owner : String} {tokens : List String}
    {standard : Option String} (hc : a.change? = some (.establish owner tokens standard))
    (hsuccess : ¬a.Fails s) {history : List Action} (hraw : ∀ a ∈ history, a.isRaw = false) :
    (∃ value, IsLatin1 value ∧ (afterAll history (a.after s)).Heeds value) ↔ IsLatin1 owner := by
  obtain ⟨opened, -, hmade⟩ := made_of_succeeds hc hsuccess
  obtain ⟨state, hstate, rfl⟩ := hmade.of_establish
  have hlater := madeAll_grantedIn hraw state.tables
  rw [← hstate.2] at hlater
  obtain ⟨state', hstate', howner⟩ := hlater.holds hstate
  rw [← howner]
  exact Storage.exists_heeds_iff hstate'

/-- An owner that the setup command names by letters and a point is heard. -/
theorem owner_heard_after_setup :
    let a : Action := .setup {} ["--owner", "owner.near"]
    let history : List Action := [.step (.addToken "usdt.near")]
    a.change? = some (.establish "owner.near" [] (some "5")) ∧ ¬a.Fails .bare ∧
      (∀ a ∈ history, a.isRaw = false) ∧
      ∃ value, IsLatin1 value ∧ (afterAll history (a.after .bare)).Heeds value := by
  intro a history
  have hc : a.change? = some (.establish "owner.near" [] (some "5")) := rfl
  have hsuccess : ¬a.Fails .bare := by decide
  have hraw : ∀ a ∈ history, a.isRaw = false := by decide
  exact ⟨hc, hsuccess, hraw, (owner_heard_iff hc hsuccess hraw).2 (by decide)⟩

/-- Two Arabic digits and `.near` are an account id, and a step creates the fee state for it. But no
header holds the digits. -/
theorem other_digits_locked_out :
    let owner := "\u0663\u0663.near"
    let a : Action := .step (.establish owner [] none)
    a.change? = some (.establish owner [] none) ∧ ¬a.Fails (.ready .fresh) ∧
      ¬∃ value, IsLatin1 value ∧ (a.after (.ready .fresh)).Heeds value := by
  intro owner a
  have hsuccess : ¬a.Fails (.ready .fresh) := by decide
  obtain ⟨opened, -, hmade⟩ := made_of_succeeds (a := a) rfl hsuccess
  obtain ⟨state, hstate, howner⟩ := hmade.of_establish
  refine ⟨rfl, hsuccess, ?_⟩
  rw [Storage.exists_heeds_iff hstate, howner]
  decide

end Action

end TransferFees
