import Mathlib.Algebra.Group.Int.Defs
import Mathlib.Data.List.Chain
import TransferFees.Proofs.Successes

/-!
# What a history answers

What is stored never has to be looked at to know what will be answered: it is enough to know how the
fee state began and which changes were granted since (`Action.history_answers`).

* A token is supported if the last change that is about it added it. If there is none, it is
  supported if it was from the beginning (`Change.supportedAfter`).
* The percent is the one that the last text stands for, or the first one (`Change.PercentAfter`).
* Fees, the text of the percent and the list of tokens follow from these two alone
  (`Storage.Answers`).

By `Action.madeAll_grantedIn` the granted changes are made one after the other, so the first two are
inductions on `Change.MadeAll`.
-/

namespace TransferFees

/-! ## The last word -/

namespace Change

/-- The text of the percent that the change sets, if it sets one. -/
def percentText? : Change → Option String
  | .setPercent _ text => some text
  | _ => none

/-- Whether a token is supported after the changes, if `tokens` were before them. -/
def supportedAfter (tokens : TokenSet) (cs : List Change) (id : String) : Bool :=
  ((cs.filterMap (leaves? id)).getLast?).getD (decide (id ∈ tokens))

/-- After the changes the percent is `p`, if it was `percent` before them. -/
def PercentAfter (percent : Int) (cs : List Change) (p : Int) : Prop :=
  match (cs.filterMap percentText?).getLast? with
  | none => p = percent
  | some text => Percent.parse text = .ok p

section
variable {c : Change} {rest : List Change} {state : FeeState} {plan : Plan} {p : Int}

/-- After a change a token is supported as the change leaves it or, if it is about something else,
as before. -/
theorem Planned.decide_mem (h : c.Planned state plan) (id : String) :
    decide (id ∈ plan.next.tokens) = (c.leaves? id).getD (decide (id ∈ state.tokens)) := by
  cases hleaves : c.leaves? id with
  | none => simp [h.mem_iff_of_not_leaves hleaves]
  | some there => simp [(h.mem_iff_of_leaves hleaves).2]

/-- The first change of a run is accounted for by the state that it leads to. -/
theorem Planned.supportedAfter (h : c.Planned state plan) (id : String) :
    Change.supportedAfter plan.next.tokens rest id =
      Change.supportedAfter state.tokens (c :: rest) id := by
  rw [Change.supportedAfter, Change.supportedAfter, h.decide_mem]
  cases hleaves : c.leaves? id with
  | none => rw [List.filterMap_cons_none hleaves, Option.getD_none]
  | some there =>
      rw [List.filterMap_cons_some hleaves, List.getLast?_cons, Option.getD_some, Option.getD_some]

theorem Planned.percentAfter (h : c.Planned state plan)
    (hrest : PercentAfter plan.next.percent rest p) : PercentAfter state.percent (c :: rest) p := by
  cases h with
  | @setPercent caller text value hcaller hparse =>
      have htext : (Change.setPercent caller text).percentText? = some text := rfl
      rw [PercentAfter] at hrest ⊢
      rw [List.filterMap_cons_some htext, List.getLast?_cons]
      -- a later text has the last word; without one it is with this text
      cases hlast : (rest.filterMap percentText?).getLast? with
      | none =>
          rw [hlast] at hrest
          rw [Option.getD_none, show p = value from hrest]
          exact hparse
      | some later =>
          rw [hlast] at hrest
          exact hrest
  | addToken hid hnew => exact hrest
  | removeToken hid => exact hrest

end

namespace MadeAll

variable {cs : List Change} {s s' : Storage} {state : FeeState}

/-- **What is stored after a run of changes.** -/
theorem exists_holds (h : MadeAll s cs s') (hs : s.Holds state) :
    ∃ state', s'.Holds state' ∧
      (∀ id, decide (id ∈ state'.tokens) = supportedAfter state.tokens cs id) ∧
      PercentAfter state.percent cs state'.percent := by
  induction h generalizing state with
  | nil s => exact ⟨state, hs, fun id => rfl, rfl⟩
  | cons first _ ih =>
      obtain ⟨plan, hplanned, hnext⟩ := first.planned hs
      obtain ⟨state', hstate', htokens, hpercent⟩ := ih hnext
      refine ⟨state', hstate', fun id => ?_, hplanned.percentAfter hpercent⟩
      rw [htokens, hplanned.supportedAfter]

/-- **Changes about a token alternate**, and the first of them does not leave it as it was. -/
theorem isChain_leaves (h : MadeAll s cs s') (hs : s.Holds state) (id : String) :
    (decide (id ∈ state.tokens) :: cs.filterMap (leaves? id)).IsChain (· ≠ ·) := by
  induction h generalizing state with
  | nil s => exact .singleton _
  | @cons c rest _ _ _ first _ ih =>
      obtain ⟨plan, hplanned, hnext⟩ := first.planned hs
      have hrest := ih hnext
      rw [hplanned.decide_mem] at hrest
      cases hleaves : c.leaves? id with
      | none =>
          rw [hleaves] at hrest
          rwa [List.filterMap_cons_none hleaves]
      | some there =>
          rw [hleaves] at hrest
          rw [List.filterMap_cons_some hleaves]
          have hfound := (hplanned.mem_iff_of_leaves hleaves).1
          exact .cons_cons (by cases there <;> simp [hfound]) hrest

end MadeAll

end Change

/-! ## Questions -/

/-- What is charged for an amount at the percent `p`, if the token is supported. -/
def charge (amount p : Int) (supported : Bool) : Int :=
  if supported then min (amount * p / 10000) ((2 ^ 256 - 1) / 10000) else 0

/-- Whatever the settings, the request is answered with status 200 and the given body. -/
def Http.Request.Gets (r : Request) (s : Storage) (body : Json) : Prop :=
  ∀ settings, (handle settings r s).response.status = 200 ∧
    (handle settings r s).response.body = .json body

/-- Every question to what is stored, by a step or by a request, is answered as the supported tokens
and the percent `p` tell. -/
structure Storage.Answers (s : Storage) (supported : String → Bool) (p : Int) : Prop where
  fee : ∀ t : Transfer, 0 ≤ t.amount →
    ((Step.fee t).run s).result = .ok (.fee (charge t.amount p (supported t.token)))
  fee_request : ∀ (r : Http.Request) (form : FeeForm), r.call? = some (.fee form) →
    let t := form.transfer
    r.Gets s (FeeAnswer.toJson ⟨Numeral.signedText (charge t.amount p (supported t.token))⟩)
  percent : ∃ text, Percent.format? p = some text ∧
    (Step.percentText.run s).result = .ok (.text text) ∧
    ∀ r : Http.Request, r.call? = some .percentText → r.Gets s (PercentAnswer.toJson ⟨text⟩)
  tokens : ∃ ids : List String, ids.Pairwise (· < ·) ∧ (∀ id, id ∈ ids ↔ supported id = true) ∧
    (Step.listTokens.run s).result = .ok (.tokens ids) ∧
    ∀ r : Http.Request, r.call? = some .listTokens → r.Gets s (TokensAnswer.ofList ids).toJson

section
variable {s : Storage} {state : FeeState}

theorem FeeState.fee_eq_charge {t : Transfer} (h : 0 ≤ t.amount) :
    state.fee t = .ok (charge t.amount state.percent (decide (t.token ∈ state.tokens))) := by
  rw [fee, charge]
  split
  · rename_i hsupported
    rw [feeOf_eq_min h, Int.mul_comm, if_pos (decide_eq_true hsupported)]
    rfl
  · rename_i hunsupported
    rw [if_neg (by simpa using hunsupported)]

/-- **A stored state answers all three questions**, from what it holds and from nothing else. -/
theorem Storage.Holds.answers (hs : s.Holds state) :
    s.Answers (fun id => decide (id ∈ state.tokens)) state.percent := by
  obtain ⟨hstate, rfl⟩ := hs
  refine ⟨fun t ht => ?_, fun r form hr settings => ?_, ?_, ?_⟩
  · have hfee := Service.yields_fee (l := []) hstate (FeeState.fee_eq_charge ht)
    exact Work.Yields.commit (.bind hfee (Work.yields_pure _))
  · have hamount : 0 ≤ form.transfer.amount := Int.natCast_nonneg _
    have hfee := Service.yields_fee (l := []) hstate (FeeState.fee_eq_charge hamount)
    exact Http.handle_of_answer hr (Http.response_serve
        (Work.Yields.commit (.bind hfee (Work.yields_pure _))))
  · obtain ⟨text, htext⟩ := hstate.percentText
    have hwork := Service.yields_percentText (l := []) hstate htext
    refine ⟨text, FeeState.percentText_eq_ok_iff.1 htext, ?_, fun r hr settings => ?_⟩
    · exact Work.Yields.commit (.bind hwork (Work.yields_pure _))
    · exact Http.handle_of_answer hr (Http.response_serve
        (Work.Yields.commit (.bind hwork (Work.yields_pure _))))
  · refine ⟨state.tokens.toList, state.tokens.sorted, fun id => ?_, ?_, fun r hr settings => ?_⟩
    · rw [decide_eq_true_iff, TokenSet.mem_def]
    · exact Work.Yields.commit (.bind (Service.yields_listTokens hstate) (Work.yields_pure _))
    · exact Http.handle_listTokens hstate hr settings

end

/-! ## The first answer -/

namespace Action

/-- The action tells that it has created the fee state: a step gives the state, the answer to a
request describes it, and the setup command logs it. -/
def Tells (a : Action) (s : Storage) (state : FeeState) : Prop :=
  match a with
  | .step x => (x.run s).result = .ok (.state state)
  | .request settings r =>
    ∃ text, state.percentText = .ok text ∧ (Http.handle settings r s).response.status = 201 ∧
      (Http.handle settings r s).response.body =
        .json (StateAnswer.toJson ⟨state.owner, text, state.tokens.toList⟩)
  | .setup settings argv => .event (.initialized state) ∈ (Setup.run settings argv s).log

end Action

section
variable {settings : Settings} {caller : String} {tokens : List String} {standard : Option String}
  {state : FeeState}

/-- A request that asks for the fee state to be created comes to the call that does so. -/
theorem Http.Request.call_of_establish {r : Request}
    (h : r.change? settings = some (.establish caller tokens standard)) :
    ∃ form, r.call? = some (.establish caller form) ∧ form.tokens = tokens ∧
      standard = some settings.standardPercent := by
  obtain ⟨e, hroute, he⟩ := endpoint_of_change? h
  cases e with
  | establish =>
      obtain ⟨carried, hintake, hc⟩ := exists_of_intake_map he
      cases hc
      refine ⟨carried.2, ?_, rfl, rfl⟩
      rw [call?, hroute, Route.call?, Endpoint.call?, hintake]
      rfl
  | setPercent =>
      obtain ⟨carried, -, hc⟩ := exists_of_intake_map he
      cases hc
  | addToken =>
      obtain ⟨carried, -, hc⟩ := exists_of_intake_map he
      cases hc
  | _ => cases he

/-- The setup command that creates the fee state logs the event with the state in it. -/
theorem Setup.event_mem_log {argv : List String}
    (hc : change? settings argv = some (.establish caller tokens standard))
    (houtcome : (Change.establish caller tokens standard).outcome .fresh =
      .ok (.initialized state, state)) :
    .event (.initialized state) ∈ (run settings argv (.ready .fresh)).log := by
  obtain ⟨owner, others, hparse, howner, hestablish⟩ := of_change? hc
  cases hestablish
  have hrun : run settings argv (.ready .fresh) =
      runWith settings ⟨.named caller, tokens⟩ (.ready .fresh) := by
    rw [run, hparse]
  have hwork : ∃ s' entry, establish settings caller tokens ⟨.ready .fresh, []⟩ =
      (.ok (), ⟨s', [.event (.initialized state), entry]⟩) :=
    ⟨_, _, Work.bind_of_ok (Service.change_ok houtcome)⟩
  obtain ⟨s', entry, hwork⟩ := hwork
  have hcommit := Work.commit_of_ok hwork
  rw [hrun, runWith_of_ok rfl howner (by rw [hcommit]), hcommit]
  simp

namespace Action

variable {a : Action}

/-- Each of the three ways to create the fee state tells what was created: by its answer, or in the
log. -/
theorem tells_of_outcome (hc : a.change? = some (.establish caller tokens standard))
    (houtcome : (Change.establish caller tokens standard).outcome .fresh =
      .ok (.initialized state, state)) (hstate : state.Valid) : a.Tells (.ready .fresh) state := by
  cases a with
  | step x =>
      cases x <;> cases hc
      exact Work.Yields.commit (.bind (Service.yields_change houtcome) (Work.yields_pure _))
  | request settings r =>
      obtain ⟨form, hcall, rfl, rfl⟩ := Http.Request.call_of_establish hc
      obtain ⟨text, htext⟩ := hstate.percentText
      refine ⟨text, htext, Http.handle_of_answer hcall (Http.response_serve (Work.Yields.commit ?_))⟩
      exact .bind (Service.yields_change houtcome) fun d =>
        .bind (Work.yields_record _ d) fun d =>
          .bind (Work.yields_ofExcept htext d) (Work.yields_pure _)
  | setup settings argv => exact Setup.event_mem_log hc houtcome

/-- On fresh tables an action that creates the fee state tells what is stored then. -/
theorem exists_tells (hc : a.change? = some (.establish caller tokens standard))
    (hsuccess : ¬a.Fails (.ready .fresh)) :
    ∃ state, a.Tells (.ready .fresh) state ∧ (a.after (.ready .fresh)).Holds state := by
  obtain ⟨opened, hopened, hmade⟩ := made_of_succeeds hc hsuccess
  rw [hopened.eq_of_ready] at hmade
  obtain ⟨t, e, state, ht, houtcome, hafter⟩ := hmade
  cases ht
  obtain ⟨-, rfl, hstate, -⟩ | ⟨s, ht, -⟩ := Change.outcome_cases houtcome
  · exact ⟨state, tells_of_outcome hc houtcome hstate, hstate, hafter⟩
  · cases congrArg Tables.fees ht

end Action

end

/-! ## Histories -/

namespace Action

/-- **The history determines the answers.** Once an action has created the fee state on fresh tables
and told what it is, everything that is asked after any history of further actions is answered from
what was told and from the changes that were granted. About each token they alternate. -/
theorem history_answers {first : Action} {caller : String} {tokens : List String}
    {standard : Option String} (hfirst : first.change? = some (.establish caller tokens standard))
    (hsuccess : ¬first.Fails (.ready .fresh)) :
    ∃ state, first.Tells (.ready .fresh) state ∧
      ∀ history : List Action, (∀ a ∈ history, a.isRaw = false) →
        let start := first.after (.ready .fresh)
        let granted := grantedIn history start
        (∀ id, (decide (id ∈ state.tokens) :: granted.filterMap (Change.leaves? id)).IsChain
          (· ≠ ·)) ∧
        ∃ p, Change.PercentAfter state.percent granted p ∧
          (afterAll history start).Answers (Change.supportedAfter state.tokens granted) p := by
  obtain ⟨state, htells, hstart⟩ := exists_tells hfirst hsuccess
  refine ⟨state, htells, fun history hraw => ?_⟩
  intro start granted
  have hmade : Change.MadeAll start granted (afterAll history start) := by
    simp only [granted, show start = .ready state.tables from hstart.2]
    exact madeAll_grantedIn hraw state.tables
  obtain ⟨state', hstate', htokens, hpercent⟩ := hmade.exists_holds hstart
  refine ⟨hmade.isChain_leaves hstart, state'.percent, hpercent, ?_⟩
  rw [← funext htokens]
  exact hstate'.answers

/-- The owner sets the percent and someone else fails to; one token comes and one goes. What a step
would be told then is read off the two changes of tokens and the text `7.5`. -/
theorem history_answers_wrap_for_usdt :
    let first : Action := .step (.establish "owner.near" ["wrap.near"] none)
    let history : List Action := [.step (.addToken "usdt.near"),
      .step (.setPercent "owner.near" "7.5"), .step (.setPercent "mallory.near" "1"),
      .step (.removeToken "wrap.near"), .step (.removeToken "wrap.near")]
    let granted : List Change :=
      [.addToken "usdt.near", .setPercent "owner.near" "7.5", .removeToken "wrap.near"]
    first.change? = some (.establish "owner.near" ["wrap.near"] none) ∧
      ¬first.Fails (.ready .fresh) ∧ (∀ a ∈ history, a.isRaw = false) ∧
      grantedIn history (first.after (.ready .fresh)) = granted ∧
      ∃ state, first.Tells (.ready .fresh) state ∧
        (afterAll history (first.after (.ready .fresh))).Answers
          (Change.supportedAfter state.tokens granted) 750 := by
  intro first history granted
  have hfirst : first.change? = some (.establish "owner.near" ["wrap.near"] none) := rfl
  have hsuccess : ¬first.Fails (.ready .fresh) := by decide
  have hraw : ∀ a ∈ history, a.isRaw = false := by decide
  have hgranted : grantedIn history (first.after (.ready .fresh)) = granted := by rfl
  obtain ⟨state, htells, hanswers⟩ := history_answers hfirst hsuccess
  obtain ⟨-, p, hpercent, hfinal⟩ := hanswers history hraw
  rw [hgranted] at hpercent hfinal
  have hparse : Percent.parse "7.5" = .ok 750 := rfl
  obtain rfl : 750 = p := Except.ok.inj (hparse.symm.trans hpercent)
  exact ⟨hfirst, hsuccess, hraw, hgranted, state, htells, hfinal⟩

end Action

end TransferFees
