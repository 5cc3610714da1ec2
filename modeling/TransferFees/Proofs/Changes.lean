import TransferFees.Proofs.Ledger

/-!
# What a change comes to

A change is planned on the fee state that was loaded and then stored. `Change.outcome` is what comes
of that on given tables, as a function; `Service.change_ok` and `Service.change_error` say that the
service computes it. Two facts about it carry most of what is said of the service elsewhere:

* On the rows of a valid state nothing that was planned is refused when it is stored
  (`Change.outcome_of_valid`). The tables only repeat what the plan has checked.
* A change that succeeds either creates the fee state, where there is no fee row, or is one that the
  valid state of the tables allows (`Change.outcome_cases`).
-/

namespace TransferFees

/-- What a change to the given tables comes to: the event as it is recorded and the fee state that
is given, or the error. -/
def Change.outcome (t : Tables) (c : Change) : Except FeeError (Event × FeeState) := do
  let seen ← t.load
  let plan ← c.plan seen
  let e ← plan.event.storedIn t
  return (e, e.stateAfter plan.next)

/-- An outcome that is a success is made up of loading, planning and storing, in this order. -/
theorem Change.of_outcome_ok {t : Tables} {c : Change} {e : Event} {next : FeeState}
    (h : c.outcome t = .ok (e, next)) :
    ∃ seen plan, t.load = .ok seen ∧ c.plan seen = .ok plan ∧ plan.event.storedIn t = .ok e ∧
      next = e.stateAfter plan.next := by
  rw [outcome] at h
  obtain ⟨seen, hload, h⟩ := Except.bind_eq_ok_iff.1 h
  obtain ⟨plan, hplan, h⟩ := Except.bind_eq_ok_iff.1 h
  obtain ⟨stored, hstored, h⟩ := Except.bind_eq_ok_iff.1 h
  cases h
  exact ⟨seen, plan, hload, hplan, hstored, rfl⟩

namespace Service

variable {t : Tables} {l : List LogEntry} {c : Change}

theorem loadState_ready :
    loadState ⟨.ready t, l⟩ = (t.load >>= needState, ⟨.ready t, l⟩) := by
  have hload := Ledger.load_ready (t := t) (l := l)
  cases h : t.load with
  | ok seen =>
      rw [h] at hload
      rw [loadState, Work.bind_of_ok hload, Work.ofExcept_apply]
      rfl
  | error e =>
      rw [h] at hload
      rw [loadState, Work.bind_of_error hload]
      rfl

/-- Where a change is loaded and planned, only carrying the plan out is left. -/
theorem change_of_plan {seen : Option FeeState} {plan : Plan} (hload : t.load = .ok seen)
    (hplan : c.plan seen = .ok plan) :
    change c ⟨.ready t, l⟩ = plan.carryOut ⟨.ready t, l⟩ := by
  have hloaded : Ledger.load ⟨.ready t, l⟩ = (.ok seen, ⟨.ready t, l⟩) := by
    rw [Ledger.load_ready, hload]
  have hplanned : Work.ofExcept (c.plan seen) ⟨.ready t, l⟩ = (.ok plan, ⟨.ready t, l⟩) := by
    rw [Work.ofExcept_apply, hplan]
  rw [change, Work.bind_of_ok hloaded, Work.bind_of_ok hplanned]

/-- A change with an outcome stores it and logs its event. -/
theorem change_ok {e : Event} {next : FeeState} (h : c.outcome t = .ok (e, next)) :
    change c ⟨.ready t, l⟩ = (.ok next, ⟨.ready (e.replay t), l ++ [.event e]⟩) := by
  obtain ⟨seen, plan, hload, hplan, hstored, rfl⟩ := Change.of_outcome_ok h
  rw [change_of_plan hload hplan, Plan.carryOut_ok hstored]

/-- Without one it fails. Some of it may have been written, but not to last, so the draft is left
open. -/
theorem change_error {err : FeeError} (h : c.outcome t = .error err) :
    ∃ s, change c ⟨.ready t, l⟩ = (.error err, ⟨s, l⟩) := by
  rw [Change.outcome] at h
  rcases Except.bind_eq_error_iff.1 h with hload | ⟨seen, hload, h⟩
  · exact ⟨_, Work.bind_of_error (by rw [Ledger.load_ready, hload])⟩
  · have hloaded : Ledger.load ⟨.ready t, l⟩ = (.ok seen, ⟨.ready t, l⟩) := by
      rw [Ledger.load_ready, hload]
    rcases Except.bind_eq_error_iff.1 h with hplan | ⟨plan, hplan, h⟩
    · refine ⟨.ready t, ?_⟩
      rw [change, Work.bind_of_ok hloaded, hplan]
      rfl
    · rcases Except.bind_eq_error_iff.1 h with hstored | ⟨stored, -, h⟩
      · rw [change_of_plan hload hplan]
        exact Plan.carryOut_error hstored
      · cases h

/-- Without tables no change gets further than loading. -/
theorem change_unready {s : Storage} (h : s.contents? = none) (c : Change) :
    ∃ e, change c ⟨s, l⟩ = (.error e, ⟨s, l⟩) := by
  cases s with
  | bare => exact ⟨_, rfl⟩
  | broken => exact ⟨_, rfl⟩
  | ready t => cases h

end Service

/-! ## Creating the fee state -/

/-- The fee state that is made for a caller where there is none yet. The text of the standard
percent, if there is one, is read first. -/
def FeeState.start (caller : String) (tokens : List String) (standard : Option String) :
    Except FeeError FeeState := do
  let percent ← parseStandard standard
  FeeState.new caller tokens percent

theorem Change.plan_establish (caller : String) (tokens : List String) (standard : Option String) :
    (Change.establish caller tokens standard).plan none =
      (FeeState.start caller tokens standard).map fun state => ⟨.initialized state, state⟩ := by
  simp only [Change.plan, FeeState.start, bind, Except.bind]
  cases parseStandard standard with
  | error e => rfl
  | ok percent =>
      simp only [pure, Except.pure]
      cases FeeState.new caller tokens percent <;> rfl

theorem FeeState.valid_of_start {caller : String} {tokens : List String} {standard : Option String}
    {s : FeeState} (h : FeeState.start caller tokens standard = .ok s) :
    s.Valid ∧ s.owner = caller ∧ s.tokens = .ofList tokens := by
  rw [start] at h
  obtain ⟨percent, -, hnew⟩ := Except.bind_eq_ok_iff.1 h
  obtain ⟨rfl, hv⟩ := FeeState.make_eq_ok_iff.1 hnew
  exact ⟨hv, rfl, rfl⟩

/-! ## Changes of a valid state -/

/-- What may be planned on a fee state that is there. -/
inductive Change.Planned (s : FeeState) : Change → Plan → Prop where
  | setPercent {caller text : String} {p : Int} (hcaller : caller = s.owner)
      (hparse : Percent.parse text = .ok p) :
      Planned s (.setPercent caller text) ⟨.percentSet p caller, { s with percent := p }⟩
  | addToken {id : String} (hid : AccountId.isValid id = true) (hnew : id ∉ s.tokens) :
      Planned s (.addToken id) ⟨.tokenAdded id, { s with tokens := s.tokens.insert id }⟩
  | removeToken {id : String} (hid : id ∈ s.tokens) :
      Planned s (.removeToken id) ⟨.tokenRemoved id, { s with tokens := s.tokens.erase id }⟩

namespace Change

variable {s : FeeState} {c : Change} {plan : Plan}

/-- To plan one of the other changes is to carry it out on the loaded state. -/
theorem plan_setPercent (s : FeeState) (caller text : String) :
    (Change.setPercent caller text).plan (some s) =
      (s.setPercent caller text).map fun next => ⟨.percentSet next.percent caller, next⟩ := rfl

theorem plan_addToken (s : FeeState) (id : String) :
    (Change.addToken id).plan (some s) =
      (s.addToken id).map fun next => ⟨.tokenAdded id, next⟩ := rfl

theorem plan_removeToken (s : FeeState) (id : String) :
    (Change.removeToken id).plan (some s) =
      (s.removeToken id).map fun next => ⟨.tokenRemoved id, next⟩ := rfl

/-- A change that can be planned on a state is one of three. There is no creating where a state is.
-/
theorem planned (h : c.plan (some s) = .ok plan) : c.Planned s plan := by
  cases c with
  | establish caller tokens standard => cases h
  | setPercent caller text =>
      rw [plan_setPercent] at h
      obtain ⟨next, hnext, rfl⟩ := Except.map_eq_ok_iff.1 h
      obtain ⟨hcaller, p, hparse, rfl⟩ := FeeState.setPercent_eq_ok_iff.1 hnext
      exact .setPercent hcaller hparse
  | addToken id =>
      rw [plan_addToken] at h
      obtain ⟨next, hnext, rfl⟩ := Except.map_eq_ok_iff.1 h
      obtain ⟨hid, hnew, rfl⟩ := FeeState.addToken_eq_ok_iff.1 hnext
      exact .addToken hid hnew
  | removeToken id =>
      rw [plan_removeToken] at h
      obtain ⟨next, hnext, rfl⟩ := Except.map_eq_ok_iff.1 h
      obtain ⟨hid, rfl⟩ := FeeState.removeToken_eq_ok_iff.1 hnext
      exact .removeToken hid

/-- The column is wide enough for any percent of the range. -/
theorem fitsColumn_of_parse {text : String} {p : Int} (h : Percent.parse text = .ok p) :
    fitsColumn p = true := by
  have hrange := Percent.parse_range h
  simp only [Percent.least, Percent.greatest] at hrange
  simp only [fitsColumn, Bool.and_eq_true, decide_eq_true_eq]
  omega

namespace Planned

/-- The tables of the state refuse nothing that was planned on it. -/
theorem storedIn (h : c.Planned s plan) : plan.event.storedIn s.tables = .ok plan.event := by
  cases h with
  | setPercent hcaller hparse => exact if_pos (fitsColumn_of_parse hparse)
  | addToken hid hnew => exact if_neg hnew
  | removeToken hid => exact if_pos hid

theorem stateAfter (h : c.Planned s plan) : plan.event.stateAfter plan.next = plan.next := by
  cases h <;> rfl

/-- The tables are changed as the state is. -/
theorem replay (h : c.Planned s plan) : plan.event.replay s.tables = plan.next.tables := by
  cases h <;> rfl

/-- **A change leads from a valid state to a valid state.** -/
theorem valid (h : c.Planned s plan) (hs : s.Valid) : plan.next.Valid := by
  cases h with
  | setPercent hcaller hparse =>
      exact hs.setPercent (FeeState.setPercent_eq_ok_iff.2 ⟨hcaller, _, hparse, rfl⟩)
  | addToken hid hnew => exact hs.addToken (FeeState.addToken_eq_ok_iff.2 ⟨hid, hnew, rfl⟩)
  | removeToken hid => exact hs.removeToken (FeeState.removeToken_eq_ok_iff.2 ⟨hid, rfl⟩)

end Planned

/-- **On the rows of a valid state a change comes to what was planned.** -/
theorem outcome_of_valid (hs : s.Valid) (c : Change) :
    c.outcome s.tables = (c.plan (some s)).map fun plan => (plan.event, plan.next) := by
  rw [outcome, hs.load]
  cases hplan : c.plan (some s) with
  | error e => simp only [bind, Except.bind, hplan, Except.map]
  | ok plan =>
      have hp := planned hplan
      simp only [bind, Except.bind, hplan, hp.storedIn, hp.stateAfter, pure, Except.pure,
        Except.map]

/-- **A change that succeeds** creates the fee state, or is allowed by the one that is there. -/
theorem outcome_cases {t : Tables} {e : Event} {next : FeeState} (h : c.outcome t = .ok (e, next)) :
    (t.fees = none ∧ e = .initialized next ∧ next.Valid ∧
        ∃ caller tokens standard, c = .establish caller tokens standard ∧ next.owner = caller) ∨
      ∃ s, t = s.tables ∧ s.Valid ∧ c.Planned s ⟨e, next⟩ := by
  obtain ⟨seen, plan, hload, hplan, hstored, rfl⟩ := of_outcome_ok h
  cases seen with
  | some s =>
      obtain ⟨rfl, hs⟩ := Tables.load_eq_some_iff.1 hload
      have hp := planned hplan
      rw [hp.storedIn] at hstored
      cases hstored
      rw [hp.stateAfter]
      exact .inr ⟨s, rfl, hs, hp⟩
  | none =>
      cases c with
      | setPercent caller text => cases hplan
      | addToken id => cases hplan
      | removeToken id => cases hplan
      | establish caller tokens standard =>
          rw [plan_establish] at hplan
          obtain ⟨state, hstart, rfl⟩ := Except.map_eq_ok_iff.1 hplan
          obtain ⟨hfees, -, stored, hmake, rfl⟩ := Event.initialized_storedIn.1 hstored
          obtain ⟨rfl, hv⟩ := FeeState.make_eq_ok_iff.1 hmake
          have howner := (FeeState.valid_of_start hstart).2.1
          exact .inl ⟨hfees, rfl, hv, caller, tokens, standard, rfl, howner⟩

/-- On fresh tables only creating the fee state can succeed, and nothing joins it. -/
theorem outcome_fresh (caller : String) (tokens : List String) (standard : Option String) :
    (Change.establish caller tokens standard).outcome .fresh =
      (FeeState.start caller tokens standard).map fun s => (.initialized s, s) := by
  have hload : Tables.fresh.load = .ok none := rfl
  rw [outcome, hload]
  cases hstart : FeeState.start caller tokens standard with
  | error e => simp only [bind, Except.bind, plan_establish, hstart, Except.map]
  | ok s =>
      have hmake : FeeState.make s.owner s.percent (TokenSet.empty.insertAll s.tokens.toList) =
          .ok s := by
        rw [TokenSet.insertAll_empty]
        exact (FeeState.valid_of_start hstart).1.make
      have hfresh : ∀ id ∈ s.tokens.toList, id ∉ Tables.fresh.tokens :=
        fun _ _ => TokenSet.not_mem_empty
      have hstored : (Event.initialized s).storedIn .fresh = .ok (.initialized s) :=
        Event.initialized_storedIn.2 ⟨rfl, hfresh, s, hmake, rfl⟩
      simp only [bind, Except.bind, plan_establish, hstart, Except.map, hstored, pure, Except.pure]
      rfl

end Change

/-! ## The service on a valid state -/

namespace Service

variable {s : FeeState} {l : List LogEntry}

theorem loadState_of_valid (hs : s.Valid) :
    loadState ⟨.ready s.tables, l⟩ = (.ok s, ⟨.ready s.tables, l⟩) := by
  rw [loadState_ready, hs.load]
  rfl

/-- On the rows of a valid state, planning is all that can fail: what can be planned is stored. -/
theorem change_of_plan_ok (hs : s.Valid) {c : Change} {plan : Plan}
    (h : c.plan (some s) = .ok plan) :
    change c ⟨.ready s.tables, l⟩ =
      (.ok plan.next, ⟨.ready plan.next.tables, l ++ [.event plan.event]⟩) := by
  have houtcome : c.outcome s.tables = .ok (plan.event, plan.next) := by
    rw [Change.outcome_of_valid hs, h]
    rfl
  rw [change_ok houtcome, (Change.planned h).replay]

theorem change_of_plan_error (hs : s.Valid) {c : Change} {e : FeeError}
    (h : c.plan (some s) = .error e) :
    ∃ s', change c ⟨.ready s.tables, l⟩ = (.error e, ⟨s', l⟩) := by
  refine change_error ?_
  rw [Change.outcome_of_valid hs, h]
  rfl

end Service

end TransferFees
