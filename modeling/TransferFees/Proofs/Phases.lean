import TransferFees.Proofs.Effects

/-!
# The two phases of a change

A change reads before it writes. In its read phase the fee state is loaded and the change is planned
on it (`Change.read`); in its write phase the plan is carried out and answered (`Change.write`). One
directly after the other they are the step that asks for the change (`Change.step_work`).

Between the two others may write, so a plan may be old when it is carried out. Of what it was
planned on, some things never change any more: there is a fee row, and its owner is its owner.
These, and what was read from texts, are kept in `Change.Grounded`. The rest — whether the fee row
is still missing, whether the token is there — is looked at again by the tables, and they refuse
with the same error as the plan would have. Hence an old plan comes to what a new one would come to
(`Change.Grounded.written`); only the tokens it lists may be out of date.
-/

namespace TransferFees

open Work

/-- The tables after an event, if there is one. -/
def Tables.afterEvent (t : Tables) : Except FeeError Event → Tables
  | .ok e => e.replay t
  | .error _ => t

namespace Change

/-! ## Reading, writing and answering -/

/-- The step that asks for the change. -/
def step : Change → Step
  | .establish caller tokens standard => .establish caller tokens standard
  | .setPercent caller text => .setPercent caller text
  | .addToken id => .addToken id
  | .removeToken id => .removeToken id

/-- The read phase: the fee state is loaded, and the change is planned on it. -/
def read (c : Change) : Work Plan := do
  Work.ofExcept (c.plan (← Ledger.load))

/-- What the change is answered with, from the fee state after it. -/
def answer (s : FeeState) : Change → Except FeeError Answer
  | .establish .. => .ok (.state s)
  | .setPercent .. => s.percentText.map .text
  | .addToken _ => .ok (.tokens s.tokens.toList)
  | .removeToken _ => .ok (.tokens s.tokens.toList)

/-- The write phase: the plan is carried out and answered. -/
def write (c : Change) (plan : Plan) : Work Answer := do
  Work.ofExcept (c.answer (← plan.carryOut))

/-- **A step that nobody disturbs is its read phase and then its write phase.** -/
theorem step_work (c : Change) : c.step.work = c.read >>= c.write := by
  have hchange : c.read >>= c.write =
      Service.change c >>= fun s => Work.ofExcept (c.answer s) := by
    simp only [read, Service.change, bind_assoc]
    rfl
  rw [hchange]
  cases c with
  | establish caller tokens standard => rfl
  | setPercent caller text =>
      simp only [step, Step.work, Service.setPercent, bind_assoc]
      congr 1
      funext s
      cases h : s.percentText <;> simp [answer, h] <;> rfl
  | addToken id =>
      simp only [step, Step.work, Service.addToken, bind_assoc]
      rfl
  | removeToken id =>
      simp only [step, Step.work, Service.removeToken, bind_assoc]
      rfl

/-! ## What the phases come to -/

/-- What the write phase comes to on the given tables: the event as it is recorded, and the
answer. -/
def written (t : Tables) (c : Change) (plan : Plan) : Except FeeError (Event × Answer) := do
  let e ← plan.event.storedIn t
  let a ← c.answer (e.stateAfter plan.next)
  return (e, a)

/-- The same for a plan that is made on these tables as well. -/
def writtenNow (t : Tables) (c : Change) : Except FeeError (Event × Answer) :=
  (t.load >>= c.plan) >>= c.written t

section
variable {t : Tables} {l : List LogEntry} {c : Change} {plan : Plan}

theorem read_ready : c.read ⟨.ready t, l⟩ = (t.load >>= c.plan, ⟨.ready t, l⟩) := by
  have hload := Ledger.load_ready (t := t) (l := l)
  cases h : t.load with
  | ok seen =>
      rw [h] at hload
      rw [read, bind_of_ok hload, ofExcept_apply]
      rfl
  | error e =>
      rw [h] at hload
      rw [read, bind_of_error hload]
      rfl

/-- Writing stores the event of the plan if the tables, as they are by then, let it in. -/
theorem commit_write :
    let outcome := (c.write plan).commit (.ready t)
    outcome.result = (c.written t plan).map Prod.snd ∧
      outcome.storage = .ready (t.afterEvent ((c.written t plan).map Prod.fst)) := by
  intro outcome
  cases hstored : plan.event.storedIn t with
  | error e =>
      obtain ⟨s, hcarry⟩ := Plan.carryOut_error (l := []) hstored
      have houtcome : outcome = _ := commit_of_error (bind_of_error hcarry)
      simp [houtcome, written, hstored, bind, Except.bind, Except.map, Tables.afterEvent]
  | ok e =>
      have hcarry := Plan.carryOut_ok (l := []) hstored
      have hwrite : c.write plan ⟨.ready t, []⟩ =
          (c.answer (e.stateAfter plan.next), ⟨.ready (e.replay t), [] ++ [.event e]⟩) := by
        rw [write, bind_of_ok hcarry, ofExcept_apply]
      cases hanswer : c.answer (e.stateAfter plan.next) with
      | error err =>
          rw [hanswer] at hwrite
          have houtcome : outcome = _ := commit_of_error hwrite
          simp [houtcome, written, hstored, hanswer, bind, Except.bind, Except.map,
            Tables.afterEvent]
      | ok a =>
          rw [hanswer] at hwrite
          have houtcome : outcome = _ := commit_of_ok hwrite
          simp [houtcome, written, hstored, hanswer, bind, Except.bind, Except.map, pure,
            Except.pure, Tables.afterEvent]

/-- The step does both at once, on the same tables. -/
theorem commit_step :
    let outcome := c.step.run (.ready t)
    outcome.result = (c.writtenNow t).map Prod.snd ∧
      outcome.storage = .ready (t.afterEvent ((c.writtenNow t).map Prod.fst)) := by
  intro outcome
  have hread := read_ready (t := t) (l := []) (c := c)
  have hrun : outcome = (c.read >>= c.write).commit (.ready t) := by
    rw [← step_work]
    rfl
  rw [hrun, writtenNow]
  cases hplan : t.load >>= c.plan with
  | error e =>
      rw [hplan] at hread
      rw [commit_of_error (bind_of_error hread)]
      exact ⟨rfl, rfl⟩
  | ok plan =>
      rw [hplan] at hread
      have hcommit : (c.read >>= c.write).commit (.ready t) = (c.write plan).commit (.ready t) := by
        rw [commit, bind_of_ok hread, commit]
      rw [hcommit]
      exact commit_write

theorem made_of_writtenNow {e : Event} {a : Answer} (h : c.writtenNow t = .ok (e, a)) :
    c.Made (.ready t) (.ready (e.replay t)) := by
  obtain ⟨plan, hplan, hwritten⟩ := Except.bind_eq_ok_iff.1 h
  obtain ⟨seen, hload, hplan⟩ := Except.bind_eq_ok_iff.1 hplan
  obtain ⟨stored, hstored, hwritten⟩ := Except.bind_eq_ok_iff.1 hwritten
  obtain ⟨_, -, hpair⟩ := Except.bind_eq_ok_iff.1 hwritten
  cases hpair
  have houtcome : c.outcome t = .ok (e, e.stateAfter plan.next) := by
    simp only [outcome, hload, bind, Except.bind, hplan, hstored, pure, Except.pure]
  exact ⟨t, e, _, rfl, houtcome, rfl⟩

/-! ## Plans that have grown old -/

/-- Two answers to the same change. They agree in all but the tokens that are listed after a token
was added or removed. -/
inductive Agree : Change → Except FeeError Answer → Except FeeError Answer → Prop where
  | same (c : Change) (r : Except FeeError Answer) : Agree c r r
  | added (id : String) (ids ids' : List String) :
      Agree (.addToken id) (.ok (.tokens ids)) (.ok (.tokens ids'))
  | removed (id : String) (ids ids' : List String) :
      Agree (.removeToken id) (.ok (.tokens ids)) (.ok (.tokens ids'))

/-- What holds of a plan however old it is, where `seen` is the fee state that is stored now. -/
inductive Grounded : Option FeeState → Change → Plan → Prop where
  | establish {seen : Option FeeState} {caller : String} {tokens : List String}
      {standard : Option String} {state : FeeState}
      (hstart : FeeState.start caller tokens standard = .ok state) :
      Grounded seen (.establish caller tokens standard) ⟨.initialized state, state⟩
  | setPercent {s next : FeeState} {caller text : String} {p : Int} (hcaller : caller = s.owner)
      (hparse : Percent.parse text = .ok p) (hnext : next.percent = p) :
      Grounded (some s) (.setPercent caller text) ⟨.percentSet p caller, next⟩
  | addToken {s next : FeeState} {id : String} (hid : AccountId.isValid id = true) :
      Grounded (some s) (.addToken id) ⟨.tokenAdded id, next⟩
  | removeToken {s next : FeeState} {id : String} :
      Grounded (some s) (.removeToken id) ⟨.tokenRemoved id, next⟩

/-- A plan has its ground in what it was made from. -/
theorem grounded_of_plan {seen : Option FeeState} (h : c.plan seen = .ok plan) :
    c.Grounded seen plan := by
  cases seen with
  | none =>
      cases c with
      | establish caller tokens standard =>
          rw [plan_establish] at h
          obtain ⟨state, hstart, rfl⟩ := Except.map_eq_ok_iff.1 h
          exact .establish hstart
      | setPercent caller text => cases h
      | addToken id => cases h
      | removeToken id => cases h
  | some s =>
      cases planned h with
      | setPercent hcaller hparse => exact .setPercent hcaller hparse rfl
      | addToken hid hnew => exact .addToken hid
      | removeToken hid => exact .removeToken

/-- A plan keeps its ground where the fee state is created, and where it changes but for its
owner. -/
theorem Grounded.later {seen : Option FeeState} {next : FeeState} (h : c.Grounded seen plan)
    (howner : ∀ s ∈ seen, s.owner = next.owner) : c.Grounded (some next) plan := by
  cases h with
  | establish hstart => exact .establish hstart
  | setPercent hcaller hparse hnext => exact .setPercent (hcaller.trans (howner _ rfl)) hparse hnext
  | addToken hid => exact .addToken hid
  | removeToken => exact .removeToken

/-- **An old plan comes to what a new one comes to.** Where the new one is refused when it is made,
the old one is refused by the tables, with the same error. -/
theorem Grounded.written {seen : Option FeeState} (h : c.Grounded seen plan)
    (hload : t.load = .ok seen) :
    (c.written t plan).map Prod.fst = (c.writtenNow t).map Prod.fst ∧
      c.Agree ((c.written t plan).map Prod.snd) ((c.writtenNow t).map Prod.snd) := by
  have hnow : c.writtenNow t = c.plan seen >>= c.written t := by
    rw [writtenNow, hload]
    rfl
  rw [hnow]
  cases h with
  | @establish _ caller tokens standard state hstart =>
      cases seen with
      | none =>
          rw [plan_establish, hstart]
          exact ⟨rfl, .same _ _⟩
      | some s =>
          obtain ⟨rfl, -⟩ := Tables.load_eq_some_iff.1 hload
          exact ⟨rfl, .same _ _⟩
  | @setPercent s next caller text p hcaller hparse hnext =>
      have hset : s.setPercent caller text = .ok { s with percent := p } :=
        FeeState.setPercent_eq_ok_iff.2 ⟨hcaller, p, hparse, rfl⟩
      have hsame : (Change.setPercent caller text).written t ⟨.percentSet p caller, next⟩ =
          (Change.setPercent caller text).written t
            ⟨.percentSet p caller, { s with percent := p }⟩ := by
        simp only [Change.written, Event.storedIn]
        split
        · simp only [bind, Except.bind, Event.stateAfter, answer, FeeState.percentText, hnext]
        · rfl
      rw [hsame, plan_setPercent, hset]
      exact ⟨rfl, .same _ _⟩
  | @addToken s next id hid =>
      obtain ⟨rfl, -⟩ := Tables.load_eq_some_iff.1 hload
      by_cases hmem : id ∈ s.tokens
      · have hstored : (Event.tokenAdded id).storedIn s.tables = .error .tokenPresent := if_pos hmem
        rw [plan_addToken, FeeState.addToken_of_mem hid hmem, Change.written, hstored]
        exact ⟨rfl, .same _ _⟩
      · have hadd : s.addToken id = .ok { s with tokens := s.tokens.insert id } :=
          FeeState.addToken_eq_ok_iff.2 ⟨hid, hmem, rfl⟩
        have hstored : (Event.tokenAdded id).storedIn s.tables = .ok (.tokenAdded id) := if_neg hmem
        rw [plan_addToken, hadd]
        simp only [Change.written, hstored, Except.map, bind, Except.bind]
        exact ⟨rfl, .added id _ _⟩
  | @removeToken s next id =>
      obtain ⟨rfl, -⟩ := Tables.load_eq_some_iff.1 hload
      by_cases hmem : id ∈ s.tokens
      · have hremove : s.removeToken id = .ok { s with tokens := s.tokens.erase id } := if_pos hmem
        have hstored : (Event.tokenRemoved id).storedIn s.tables = .ok (.tokenRemoved id) :=
          if_pos hmem
        rw [plan_removeToken, hremove]
        simp only [Change.written, hstored, Except.map, bind, Except.bind]
        exact ⟨rfl, .removed id _ _⟩
      · have hremove : s.removeToken id = .error (.tokenAbsent id) := if_neg hmem
        have hstored : (Event.tokenRemoved id).storedIn s.tables = .error (.tokenAbsent id) :=
          if_neg hmem
        rw [plan_removeToken, hremove, Change.written, hstored]
        exact ⟨rfl, .same _ _⟩

end

/-! ## Phases beside the step -/

/-- A change that found `s` and left `s'` has come to what its step comes to on `s`: the answers
agree and the same is stored. Either it failed and nothing is stored, or it was made. -/
structure Settles (c : Change) (s : Storage) (r : Except FeeError Answer) (s' : Storage) :
    Prop where
  agree : c.Agree r (c.step.run s).result
  storage : s' = (c.step.run s).storage
  effect : ((∃ e, r = .error e) ∧ s' = s) ∨ (∃ a, r = .ok a) ∧ c.Made s s'

section
variable {c : Change} {s : Storage}

/-- A change that fails to read fails as its step does. -/
theorem settles_of_read_error {e : FeeError} (h : (c.read.commit s).result = .error e) :
    c.Settles s (.error e) s := by
  obtain ⟨d, hread⟩ := fails_of_commit h
  have hstep : c.step.run s = ⟨.error e, s, d.log⟩ := by
    rw [Step.run, step_work, commit_of_error (bind_of_error hread)]
  refine ⟨?_, ?_, .inl ⟨⟨e, rfl⟩, rfl⟩⟩
  · rw [hstep]
    exact .same _ _
  · rw [hstep]

/-- A plan that comes out of a read phase was made on the stored fee state. -/
theorem grounded_of_read {plan : Plan} (h : (c.read.commit s).result = .ok plan) :
    ∃ t seen, s = .ready t ∧ t.load = .ok seen ∧ c.Grounded seen plan := by
  cases s with
  | bare => cases h
  | broken => cases h
  | ready t =>
      have hread := read_ready (t := t) (l := []) (c := c)
      rw [commit_of_unchanged hread] at h
      obtain ⟨seen, hload, hplan⟩ := Except.bind_eq_ok_iff.1 h
      exact ⟨t, seen, rfl, hload, grounded_of_plan hplan⟩

/-- **A plan that is carried out as long as it has its ground comes to what its step comes to.** -/
theorem settles_of_write {t : Tables} {seen : Option FeeState} {plan : Plan}
    (hload : t.load = .ok seen) (h : c.Grounded seen plan) :
    let outcome := (c.write plan).commit (.ready t)
    c.Settles (.ready t) outcome.result outcome.storage := by
  intro outcome
  have hwrite : outcome.result = (c.written t plan).map Prod.snd ∧
      outcome.storage = .ready (t.afterEvent ((c.written t plan).map Prod.fst)) := commit_write
  obtain ⟨hresult, hstorage⟩ := hwrite
  obtain ⟨hstep, hstepStorage⟩ := commit_step (t := t) (c := c)
  obtain ⟨hevent, hagree⟩ := h.written hload
  refine ⟨?_, ?_, ?_⟩
  · rw [hstep]
    exact hresult ▸ hagree
  · rw [hstepStorage, ← hevent]
    exact hstorage
  · cases hwritten : c.written t plan with
    | error e =>
        rw [hwritten] at hresult hstorage
        exact .inl ⟨⟨e, hresult⟩, hstorage⟩
    | ok pair =>
        rw [hwritten] at hresult hstorage hevent
        obtain ⟨now, hnow, hfst⟩ := Except.map_eq_ok_iff.1 hevent.symm
        have hmade : c.Made (.ready t) (.ready (now.1.replay t)) := made_of_writtenNow hnow
        rw [hfst] at hmade
        exact .inr ⟨⟨pair.2, hresult⟩, hstorage ▸ hmade⟩

end

end Change

end TransferFees
