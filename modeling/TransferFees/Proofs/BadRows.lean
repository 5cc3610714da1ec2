import TransferFees.Proofs.Fees
import TransferFees.Proofs.Successions

/-!
# Rows that make no fee state

The tables take whatever is written into them, so a fee row may be there that makes no fee state: of
an owner or with tokens that are no account ids, or with a percent outside the range. No operation
of the service gets past such a row (`Step.run_of_bad_row`), for each of them loads the fee state
first, and loading makes it anew (`Step.loadsFirst`).

**What succeeds leaves a fee state.** Tokens that are there before any fee row are no bad row yet,
and only creating the fee state judges them. So a success has to be looked at from its end:
what is stored then makes a fee state (`Step.holds_of_ok`).

Both together bound every fee that is ever told, whatever the tables hold (`Step.fails_closed`).
-/

namespace TransferFees

open Work

/-- The error is one of those for which rows make no fee state. -/
def FeeError.IsRowFault (e : FeeError) : Prop :=
  e = .percentOutOfRange ∨ ∃ reason, e = .account reason

/-- There is a fee row, its owner and the tokens are account ids, and its percent lies in the
range. -/
def Tables.MakeState (t : Tables) : Prop :=
  ∃ row ∈ t.fees, AccountId.isValid row.owner = true ∧ (1 ≤ row.percent ∧ row.percent ≤ 1000) ∧
    ∀ id ∈ t.tokens, AccountId.isValid id = true

/-! ## Loading -/

namespace FeeState

theorem isRowFault_of_checkAccount {id : String} {e : FeeError} (h : checkAccount id = .error e) :
    e.IsRowFault := by
  obtain ⟨reason, -, rfl⟩ := Except.mapError_eq_error_iff.1 h
  exact .inr ⟨reason, rfl⟩

theorem isRowFault_of_checkTokens {ids : List String} {e : FeeError}
    (h : checkTokens ids = .error e) : e.IsRowFault := by
  obtain ⟨id, -, hid⟩ := exists_of_checkTokens_error h
  exact isRowFault_of_checkAccount hid

/-- Making a state fails for no other reason than a fault of its parts. -/
theorem isRowFault_of_make {owner : String} {percent : Int} {tokens : TokenSet} {e : FeeError}
    (h : make owner percent tokens = .error e) : e.IsRowFault := by
  rw [make_eq] at h
  rcases Except.bind_eq_error_iff.1 h with howner | ⟨_, -, h⟩
  · exact isRowFault_of_checkAccount howner
  · split at h
    · cases h
      exact .inl rfl
    · rcases Except.bind_eq_error_iff.1 h with htokens | ⟨_, -, h⟩
      · exact isRowFault_of_checkTokens htokens
      · cases h

theorem Valid.makeState {s : FeeState} (h : s.Valid) : s.tables.MakeState :=
  ⟨_, rfl, h.owner, h.percent, h.tokens⟩

end FeeState

/-- Loading stumbles over a bad row, and says so. -/
theorem Tables.load_of_bad_row {t : Tables} (hrow : t.fees.isSome) (hbad : ¬t.MakeState) :
    ∃ e, t.load = .error e ∧ e.IsRowFault := by
  obtain ⟨row, hfees⟩ := Option.isSome_iff_exists.1 hrow
  cases hmake : FeeState.make row.owner row.percent t.tokens with
  | error e =>
      refine ⟨e, ?_, FeeState.isRowFault_of_make hmake⟩
      simp only [load, hfees, hmake, Except.map]
  | ok s =>
      obtain ⟨rfl, hs⟩ := FeeState.make_eq_ok_iff.1 hmake
      exact absurd ⟨row, hfees, hs.owner, hs.percent, hs.tokens⟩ hbad

/-- A fee state that was loaded is what is stored. -/
theorem Service.holds_of_loadState {d d' : Draft} {state : FeeState}
    (h : loadState d = (.ok state, d')) : d.storage.Holds state := by
  obtain ⟨s, l⟩ := d
  cases s with
  | bare => cases h
  | broken => cases h
  | ready t =>
      rw [loadState_ready] at h
      have hloaded : (t.load >>= needState) = .ok state := congrArg Prod.fst h
      obtain ⟨seen, hload, hneed⟩ := Except.bind_eq_ok_iff.1 hloaded
      cases seen with
      | none => cases hneed
      | some s =>
          cases hneed
          obtain ⟨rfl, hs⟩ := Tables.load_eq_some_iff.1 hload
          exact ⟨hs, rfl⟩

/-! ## Loading before anything else -/

/-- What keeps the fee state from being loaded stops the unit of work at its beginning. -/
def Work.LoadsFirst {α : Type} (w : Work α) : Prop :=
  ∀ t l e, Tables.load t = .error e → w ⟨.ready t, l⟩ = (.error e, ⟨.ready t, l⟩)

/-- What comes after loading is not reached, so it may be anything. -/
theorem Work.LoadsFirst.bind {α β : Type} {w : Work α} (h : w.LoadsFirst) (f : α → Work β) :
    (w >>= f).LoadsFirst := fun t l e hload => bind_of_error (h t l e hload)

theorem Ledger.loadsFirst_load : load.LoadsFirst := by
  intro t l e hload
  rw [load_ready, hload]

namespace Service

theorem loadsFirst_loadState : loadState.LoadsFirst := Ledger.loadsFirst_load.bind _

/-- Everything that the service does is loading and then something else. -/
theorem loadsFirst_change (c : Change) : (change c).LoadsFirst := Ledger.loadsFirst_load.bind _

theorem loadsFirst_setPercent (caller text : String) : (setPercent caller text).LoadsFirst :=
  (loadsFirst_change _).bind _

theorem loadsFirst_addToken (id : String) : (addToken id).LoadsFirst := (loadsFirst_change _).bind _

theorem loadsFirst_removeToken (id : String) : (removeToken id).LoadsFirst :=
  (loadsFirst_change _).bind _

theorem loadsFirst_fee (t : Transfer) : (fee t).LoadsFirst := loadsFirst_loadState.bind _

theorem loadsFirst_percentText : percentText.LoadsFirst := loadsFirst_loadState.bind _

theorem loadsFirst_listTokens : listTokens.LoadsFirst := loadsFirst_loadState.bind _

end Service

/-! ## The operations of the service -/

namespace Step

/-- The step is one of the four changes and three questions of the service. -/
def isOperation : Step → Bool
  | .establish .. | .fee _ | .setPercent .. | .percentText | .listTokens | .addToken _
  | .removeToken _ => true
  | _ => false

variable {step : Step}

theorem isRaw_of_isOperation (h : step.isOperation = true) : step.isRaw = false := by
  cases step <;> first | rfl | cases h

/-- Every operation loads before it does anything else. -/
theorem loadsFirst (h : step.isOperation = true) : step.work.LoadsFirst := by
  cases step with
  | establish caller tokens standard => exact (Service.loadsFirst_change _).bind _
  | fee t => exact (Service.loadsFirst_fee t).bind _
  | setPercent caller text => exact (Service.loadsFirst_setPercent caller text).bind _
  | percentText => exact Service.loadsFirst_percentText.bind _
  | listTokens => exact Service.loadsFirst_listTokens.bind _
  | addToken id => exact (Service.loadsFirst_addToken id).bind _
  | removeToken id => exact (Service.loadsFirst_removeToken id).bind _
  | _ => cases h

/-- A question is asked of a fee state that has to be there. -/
theorem exists_loadState_bind (h : step.isOperation = true) (hquestion : step.change? = none) :
    ∃ f : FeeState → Work Answer, step.work = Service.loadState >>= f := by
  cases step <;> simp only [isOperation, change?, Bool.false_eq_true, reduceCtorEq] at h hquestion
  all_goals
    simp only [work, Service.fee, Service.percentText, Service.listTokens, bind_assoc]
    exact ⟨_, rfl⟩

/-- **No operation gets past a bad row.** -/
theorem run_of_bad_row (h : step.isOperation = true) {t : Tables} (hrow : t.fees.isSome)
    (hbad : ¬t.MakeState) :
    (∃ e, (step.run (.ready t)).result = .error e ∧ e.IsRowFault) ∧
      (step.run (.ready t)).storage = .ready t := by
  obtain ⟨e, hload, hfault⟩ := Tables.load_of_bad_row hrow hbad
  have hrun : step.run (.ready t) = ⟨.error e, .ready t, []⟩ :=
    commit_of_error (loadsFirst h t [] e hload)
  rw [hrun]
  exact ⟨⟨e, rfl, hfault⟩, rfl⟩

/-- **An operation that succeeds leaves a fee state.** -/
theorem holds_of_ok (h : step.isOperation = true) {s : Storage} {a : Answer}
    (hok : (step.run s).result = .ok a) : ∃ state, (step.run s).storage.Holds state := by
  cases hchange : step.change? with
  | some c =>
      have hmade : c.Made s (step.run s).storage := (storesLike hchange).made_of_ok hok
      exact hmade.exists_holds
  | none =>
      obtain ⟨d, hwork⟩ := yields_of_commit hok
      have hquiet : (step.run s).storage = s :=
        (quiet (isRaw_of_isOperation h) hchange).commit s
      obtain ⟨f, hload⟩ := exists_loadState_bind h hchange
      rw [hload] at hwork
      obtain ⟨state, _, hstate, -⟩ := of_bind_ok hwork
      rw [hquiet]
      exact ⟨state, Service.holds_of_loadState hstate⟩

/-- A fee that is told was charged by the fee state that is stored. -/
theorem fee_eq_ok {tr : Transfer} {s : Storage} {value : Int}
    (h : ((Step.fee tr).run s).result = .ok (.fee value)) :
    ∃ state, s.Holds state ∧ state.fee tr = .ok value := by
  obtain ⟨d, hwork⟩ := yields_of_commit h
  obtain ⟨told, d₁, hfee, htold⟩ := of_bind_ok hwork
  obtain ⟨state, d₂, hload, hcharged⟩ := of_bind_ok hfee
  cases htold
  rw [ofExcept_apply] at hcharged
  exact ⟨state, Service.holds_of_loadState hload, congrArg Prod.fst hcharged⟩

/-- **The service fails closed**, whatever the tables hold. What succeeds leaves rows that make a
fee state; a fee row that makes none stops every operation, which says so and stores nothing; and no
fee of an amount is negative or more than a tenth of it. -/
theorem fails_closed (h : step.isOperation = true) (t : Tables) :
    let outcome := step.run (.ready t)
    (∀ a, outcome.result = .ok a → ∃ t', outcome.storage = .ready t' ∧ t'.MakeState) ∧
      (t.fees.isSome → ¬t.MakeState →
        (∃ e, outcome.result = .error e ∧ e.IsRowFault) ∧ outcome.storage = .ready t) ∧
      ∀ tr value, step = .fee tr → 0 ≤ tr.amount → outcome.result = .ok (.fee value) →
        0 ≤ 10 * value ∧ 10 * value ≤ tr.amount := by
  intro outcome
  refine ⟨?_, ?_, ?_⟩
  · intro a hok
    obtain ⟨state, hstate, hstorage⟩ := holds_of_ok h hok
    exact ⟨state.tables, hstorage, hstate.makeState⟩
  · intro hrow hbad
    exact run_of_bad_row h hrow hbad
  · rintro tr value rfl hamount htold
    obtain ⟨state, ⟨hstate, -⟩, hcharged⟩ := fee_eq_ok htold
    exact hstate.fee_bounds hamount hcharged

/-- The percent of the fee row is too high, so nobody can add a token. -/
theorem fails_closed_high_percent :
    let t : Tables := ⟨some ⟨"alice.near", 1001⟩, .ofList ["usdt.near"]⟩
    let outcome := (Step.addToken "wrap.near").run (.ready t)
    (Step.addToken "wrap.near").isOperation = true ∧ t.fees.isSome ∧ ¬t.MakeState ∧
      (∃ e, outcome.result = .error e ∧ e.IsRowFault) ∧ outcome.storage = .ready t := by
  intro t outcome
  have hbad : ¬t.MakeState := by
    rintro ⟨row, hrow, -, ⟨-, hpercent⟩, -⟩
    cases hrow
    exact absurd hpercent (by decide)
  exact ⟨rfl, rfl, hbad, (fails_closed rfl t).2.1 rfl hbad⟩

end Step

end TransferFees
