import TransferFees.Proofs.Establishing
import TransferFees.Proofs.Messages
import TransferFees.Proofs.Successes

/-!
# The audit log

Among all that is logged, the entries of the service that tell that all went well are the audit log.
A change writes one such entry as the last thing it does. What comes after it cannot fail any more
and adds only notes of others (`Work.Ends`). So a change that is made leaves one entry, with the
values that were stored, and a change that is refused leaves none (`Work.Records`).

This is followed through the three ways in which storage is reached (`Action.audited`). Replaying
the audit log of a history from nothing then gives the rows at every point, and the messages in it
are enough for that (`Action.history_audited`).
-/

namespace TransferFees

open Work

/-! ## Entries -/

namespace LogEntry

/-- The entry belongs to the audit log. -/
def IsAudit (entry : LogEntry) : Prop := entry.level = .info ∧ entry.source = .service

instance (entry : LogEntry) : Decidable entry.IsAudit := inferInstanceAs (Decidable (_ ∧ _))

/-- Events belong to the audit log, and of the notes only those that look like events do. -/
@[simp] theorem isAudit_event (e : Event) : (event e).IsAudit := ⟨rfl, rfl⟩

@[simp] theorem isAudit_note_iff {level : Level} {source : Source} {message : String} :
    (note level source message).IsAudit ↔ level = .info ∧ source = .service := Iff.rfl

/-- The tables after what an entry tells of. Notes tell of nothing that was stored. -/
def replay (t : Tables) : LogEntry → Tables
  | .event e => e.replay t
  | .note .. => t

end LogEntry

/-- The entries of the audit log among those of a log. -/
def audit (log : List LogEntry) : List LogEntry := log.filter fun entry => entry.IsAudit

@[simp] theorem audit_append (log more : List LogEntry) :
    audit (log ++ more) = audit log ++ audit more := List.filter_append ..

@[simp] theorem audit_event_cons (e : Event) (log : List LogEntry) :
    audit (.event e :: log) = .event e :: audit log := by
  simp [audit]

/-- A fee state whose rows are sound is a valid one. -/
theorem Event.sound_of_replay {t : Tables} {e : Event} (h : (e.replay t).Sound) : e.Sound := by
  cases e with
  | initialized state =>
      have howner := h.owner ⟨state.owner, state.percent⟩ rfl
      have hpercent := h.percent ⟨state.owner, state.percent⟩ rfl
      exact ⟨howner, hpercent, h.tokens⟩
  | _ => trivial

/-- Entries that tell of events are known by their messages. -/
theorem eq_of_messages {log log' : List LogEntry}
    (h : ∀ entry ∈ log, ∃ e : Event, entry = .event e ∧ e.Sound)
    (h' : ∀ entry ∈ log', ∃ e : Event, entry = .event e ∧ e.Sound)
    (hmessages : log.map LogEntry.message = log'.map LogEntry.message) : log = log' := by
  induction log generalizing log' with
  | nil => exact (List.map_eq_nil_iff.1 hmessages.symm).symm
  | cons entry rest ih =>
      cases log' with
      | nil => cases hmessages
      | cons entry' rest' =>
          obtain ⟨hentry, hrest⟩ := List.forall_mem_cons.1 h
          obtain ⟨hentry', hrest'⟩ := List.forall_mem_cons.1 h'
          obtain ⟨e, rfl, he⟩ := hentry
          obtain ⟨e', rfl, he'⟩ := hentry'
          obtain ⟨hmessage, hmore⟩ := List.cons.inj hmessages
          rw [Event.eq_of_message he he' hmessage, ih hrest hrest' hmore]

/-! ## Units of work -/

namespace Work

variable {α β : Type} {Q : α → Prop} {R : β → Prop}

/-- Whatever the draft, a value with the property `Q` comes out. Storage is left alone, and the
entries that are added do not belong to the audit log. -/
def Ends (Q : α → Prop) (w : Work α) : Prop :=
  ∀ d, ∃ a notes, Q a ∧ audit notes = [] ∧ w d = (.ok a, ⟨d.storage, d.log ++ notes⟩)

theorem ends_pure {a : α} (h : Q a) : (pure a : Work α).Ends Q := by
  intro d
  exact ⟨a, [], h, rfl, by rw [List.append_nil]; rfl⟩

theorem ends_ofExcept {x : Except FeeError α} {a : α} (h : x = .ok a) :
    (ofExcept x).Ends fun _ => True := by
  intro d
  exact ⟨a, [], trivial, rfl, by rw [List.append_nil, h]; rfl⟩

theorem ends_record {entry : LogEntry} (h : ¬entry.IsAudit) :
    (record entry).Ends fun _ => True := by
  intro d
  exact ⟨(), [entry], trivial, by simp [audit, h], rfl⟩

/-- Parts that end in silence make up a whole that does. The second part is only asked about values
that the first can give. -/
theorem Ends.bind {w : Work α} {f : α → Work β} (hw : w.Ends Q) (hf : ∀ a, Q a → (f a).Ends R) :
    (w >>= f).Ends R := by
  intro d
  obtain ⟨a, notes, ha, hnotes, hw⟩ := hw d
  obtain ⟨b, more, hb, hmore, hf⟩ := hf a ha ⟨d.storage, d.log ++ notes⟩
  refine ⟨b, notes ++ more, hb, by rw [audit_append, hnotes, hmore]; rfl, ?_⟩
  rw [bind_of_ok hw, hf, List.append_assoc]

/-- On tables a change is made, recorded as the first thing, and as the only thing that belongs to
the audit log, and a value with the property `Q` comes out. Or an error comes out, and nothing is
recorded. -/
def Records (Q : α → Prop) (w : Work α) : Prop :=
  ∀ s, (∃ t e a notes, s = .ready t ∧ Q a ∧ audit notes = [] ∧
      w ⟨s, []⟩ = (.ok a, ⟨.ready (e.replay t), .event e :: notes⟩)) ∨
    ∃ err s', w ⟨s, []⟩ = (.error err, ⟨s', []⟩)

/-- What records one event and goes on in silence has recorded one event. -/
theorem Records.bind {w : Work α} {f : α → Work β} (hw : w.Records Q)
    (hf : ∀ a, Q a → (f a).Ends R) : (w >>= f).Records R := by
  intro s
  obtain ⟨t, e, a, notes, hs, ha, hnotes, hw⟩ | ⟨err, s', hw⟩ := hw s
  · obtain ⟨b, more, hb, hmore, hf⟩ := hf a ha ⟨.ready (e.replay t), .event e :: notes⟩
    refine .inl ⟨t, e, b, notes ++ more, hs, hb, by rw [audit_append, hnotes, hmore]; rfl, ?_⟩
    rw [bind_of_ok hw, hf, List.cons_append]
  · exact .inr ⟨err, s', bind_of_error hw⟩

/-- Committed, the change is stored and is in the audit log, or it is in neither. -/
theorem Records.commit {w : Work α} (hw : w.Records Q) (s : Storage) :
    (∃ t e a, s = .ready t ∧ Q a ∧ (w.commit s).result = .ok a ∧
      (w.commit s).storage = .ready (e.replay t) ∧ audit (w.commit s).log = [.event e]) ∨
    ∃ err, w.commit s = ⟨.error err, s, []⟩ := by
  obtain ⟨t, e, a, notes, hs, ha, hnotes, hw⟩ | ⟨err, s', hw⟩ := hw s
  · refine .inl ⟨t, e, a, hs, ha, ?_⟩
    rw [commit_of_ok hw, audit_event_cons, hnotes]
    exact ⟨rfl, rfl, rfl⟩
  · exact .inr ⟨err, commit_of_error hw⟩

/-- What logs nothing of the audit log. -/
theorem Logs.audit_commit {w : Work α} (hw : w.Logs fun entry => ¬entry.IsAudit) (s : Storage) :
    audit (w.commit s).log = [] := by
  have hlog := hw.commit s
  simpa [audit] using hlog

end Work

/-! ## The service -/

namespace Service

/-- **A change that succeeds records the one event that tells of it**, and gives a valid state. -/
theorem records_change (c : Change) : (change c).Records FeeState.Valid := by
  intro s
  cases hs : s.contents? with
  | none =>
      obtain ⟨err, herr⟩ := change_unready (l := []) hs c
      exact .inr ⟨err, s, herr⟩
  | some t =>
      obtain rfl := Storage.contents?_eq_some hs
      rcases houtcome : c.outcome t with err | ⟨e, next⟩
      · obtain ⟨s', hs'⟩ := change_error (l := []) houtcome
        exact .inr ⟨err, s', hs'⟩
      · refine .inl ⟨t, e, next, [], rfl, ?_, rfl, change_ok houtcome⟩
        rcases Change.outcome_cases houtcome with ⟨-, -, hnext, -⟩ | ⟨state, -, hstate, hplanned⟩
        · exact hnext
        · exact hplanned.valid hstate

/-- What follows a change in an operation of the service is silent. -/
theorem records_setPercent (caller text : String) :
    (setPercent caller text).Records fun _ => True := by
  refine (records_change _).bind fun state hstate => ?_
  obtain ⟨written, hwritten⟩ := hstate.percentText
  exact ends_ofExcept hwritten

theorem records_addToken (id : String) : (addToken id).Records fun _ => True :=
  (records_change _).bind fun _ _ => ends_pure trivial

theorem records_removeToken (id : String) : (removeToken id).Records fun _ => True :=
  (records_change _).bind fun _ _ => ends_pure trivial

end Service

/-! ## Steps -/

namespace Step

theorem records {step : Step} {c : Change} (h : step.change? = some c) :
    step.work.Records fun _ => True := by
  cases step <;> simp only [change?, reduceCtorEq] at h
  case establish => exact (Service.records_change _).bind fun _ _ => ends_pure trivial
  case setPercent => exact (Service.records_setPercent _ _).bind fun _ _ => ends_pure trivial
  case addToken => exact (Service.records_addToken _).bind fun _ _ => ends_pure trivial
  case removeToken => exact (Service.records_removeToken _).bind fun _ _ => ends_pure trivial

/-- A question logs nothing at all. -/
theorem logs_of_question {P : LogEntry → Prop} {step : Step} (hraw : step.isRaw = false)
    (h : step.change? = none) : step.work.Logs P := by
  cases step <;> simp only [change?, isRaw, reduceCtorEq] at h hraw
  case fee t => exact (Service.logs_fee t).bind fun _ => logs_pure _
  case percentText => exact Service.logs_percentText.bind fun _ => logs_pure _
  case listTokens => exact Service.logs_listTokens.bind fun _ => logs_pure _
  case loadState => exact Service.logs_loadState.bind fun _ => logs_pure _
  case readState => exact Ledger.logs_load.bind fun _ => logs_pure _
  case readTokens => exact Ledger.logs_tokens.bind fun _ => logs_pure _

end Step

/-! ## Requests -/

namespace Http

/-- Either the answer is that of a success, a change is stored and it is in the audit log; or the
request is refused, and the change is in neither. -/
def Audits (answer : Storage → Exchange) : Prop :=
  ∀ s, (∃ t e, s = .ready t ∧ (answer s).response.status < 300 ∧
      (answer s).storage = .ready (e.replay t) ∧ audit (answer s).log = [.event e]) ∨
    300 ≤ (answer s).response.status ∧ (answer s).storage = s ∧ audit (answer s).log = []

/-- A refusal has a status from 300 on, and is not told to the audit log. -/
def Refusal.Apart (r : Refusal) : Prop := 300 ≤ r.status ∧ audit r.entry.toList = []

/-- An endpoint that records its change and refuses in other words leaves what an action is to
leave. -/
theorem audits_serve {work : Work Response} {refuse : FeeError → Refusal}
    (hw : work.Records fun response => response.status < 300) (hrefuse : ∀ e, (refuse e).Apart) :
    Audits (serve work refuse) := by
  intro s
  obtain ⟨t, e, response, hs, hstatus, hresult, hstorage, hlog⟩ | ⟨err, hcommit⟩ := hw.commit s
  · refine .inl ⟨t, e, hs, ?_⟩
    simp only [serve, hresult]
    exact ⟨hstatus, hstorage, hlog⟩
  · refine .inr ?_
    simp only [serve, hcommit]
    exact ⟨(hrefuse err).1, trivial, (hrefuse err).2⟩

/-- A question leaves no audit entries, whether it is answered or refused. -/
theorem audit_serve_of_question {work : Work Response} {refuse : FeeError → Refusal}
    (hw : work.Logs fun entry => ¬entry.IsAudit) (hrefuse : ∀ e, (refuse e).Apart) (s : Storage) :
    audit (serve work refuse s).log = [] := by
  have hlog := hw.audit_commit s
  cases hresult : (work.commit s).result with
  | ok response => simpa only [serve, hresult] using hlog
  | error e => simp only [serve, hresult, audit_append, hlog, (hrefuse e).2, List.append_nil]

theorem ends_granted (message : String) : (granted message).Ends fun _ => True :=
  ends_record (by simp)

theorem ends_ofJson {status : Nat} (h : status < 300) (v : Json) :
    (pure (.ofJson status v) : Work Response).Ends fun response => response.status < 300 :=
  ends_pure h

/-- The change that a call asks for, if it asks for one. -/
def Call.change? (settings : Settings) : Call → Option Change
  | .establish caller form =>
    some (.establish caller form.tokens (some settings.standardPercent))
  | .setPercent caller form => some (.setPercent caller form.percent)
  | .addToken form => some (.addToken form.token)
  | .removeToken id => some (.removeToken id)
  | _ => none

/-- By the seven calls: those that ask for a change record it, and grant it in a note of the routes.
-/
theorem Call.audits {settings : Settings} {call : Call} {c : Change}
    (h : call.change? settings = some c) : Audits (call.answer settings) := by
  cases call <;> simp only [change?, reduceCtorEq] at h
  case establish caller form =>
    refine audits_serve ?_ fun e => ?_
    · refine (Service.records_change _).bind fun state hstate => ?_
      obtain ⟨percent, hpercent⟩ := hstate.percentText
      refine (ends_granted _).bind fun _ _ => ?_
      exact (ends_ofExcept hpercent).bind fun _ _ => ends_ofJson (by decide) _
    · cases e <;> exact ⟨Nat.le_of_ble_eq_true rfl, rfl⟩
  case setPercent caller form =>
    refine audits_serve ((Service.records_setPercent _ _).bind fun _ _ => ?_) fun e => ?_
    · exact (ends_granted _).bind fun _ _ => ends_ofJson (by decide) _
    · cases e <;> exact ⟨Nat.le_of_ble_eq_true rfl, rfl⟩
  case addToken form =>
    refine audits_serve ((Service.records_addToken _).bind fun _ _ => ?_) fun e => ?_
    · exact (ends_granted _).bind fun _ _ => ends_ofJson (by decide) _
    · cases e <;> exact ⟨Nat.le_of_ble_eq_true rfl, rfl⟩
  case removeToken id =>
    refine audits_serve ((Service.records_removeToken _).bind fun _ _ => ?_) fun e => ?_
    · exact (ends_granted _).bind fun _ _ => ends_ofJson (by decide) _
    · cases e <;> exact ⟨Nat.le_of_ble_eq_true rfl, rfl⟩

theorem Call.audit_of_question {settings : Settings} {call : Call}
    (h : call.change? settings = none) (s : Storage) :
    audit (call.answer settings s).log = [] := by
  cases call <;> simp only [change?, reduceCtorEq] at h
  case fee form =>
    refine audit_serve_of_question ((Service.logs_fee _).bind fun _ => logs_pure _) (fun e => ?_) s
    cases e <;> exact ⟨Nat.le_of_ble_eq_true rfl, rfl⟩
  case percentText =>
    refine audit_serve_of_question (Service.logs_percentText.bind fun _ => logs_pure _)
      (fun e => ?_) s
    cases e <;> exact ⟨Nat.le_of_ble_eq_true rfl, rfl⟩
  case listTokens =>
    refine audit_serve_of_question (Service.logs_listTokens.bind fun _ => logs_pure _)
      (fun e => ?_) s
    cases e <;> exact ⟨Nat.le_of_ble_eq_true rfl, rfl⟩

/-- A request asks for the change of its call. Both read the body, so they agree on what is in
order. -/
theorem Endpoint.change?_eq (settings : Settings) (r : Request) (e : Endpoint) :
    e.change? settings r = (e.call? r).bind (Call.change? settings) := by
  cases e with
  | establish =>
      rw [change?, call?]
      cases r.intake r.caller EstablishForm.ofObject <;> rfl
  | fee =>
      show none = _
      rw [call?]
      cases r.intake (.ok ()) FeeForm.ofObject <;> rfl
  | setPercent =>
      rw [change?, call?]
      cases r.intake r.caller PercentForm.ofObject <;> rfl
  | addToken =>
      rw [change?, call?]
      cases r.intake (.ok ()) TokenForm.ofObject <;> rfl
  | _ => rfl

/-- What a request asks for is what its call asks for. -/
theorem Request.change?_eq (settings : Settings) (r : Request) :
    r.change? settings = r.call?.bind (Call.change? settings) := by
  rw [change?, call?]
  cases Route.ofRequest r with
  | endpoint e => exact e.change?_eq settings r
  | _ => rfl

/-- A request that is turned down beforehand logs nothing. -/
theorem Endpoint.log_of_call?_eq_none (settings : Settings) {r : Request} {e : Endpoint}
    (h : e.call? r = none) (s : Storage) : (e.answer settings r s).log = [] := by
  cases e with
  | root => rfl
  | health => rfl
  | _ =>
      obtain ⟨error, hanswer⟩ := answer_of_call?_eq_none settings h (by simp) s
      rw [hanswer]
      rfl

/-- A request that comes to no call logs nothing. -/
theorem log_handle_of_call?_eq_none (settings : Settings) {r : Request} (h : r.call? = none)
    (s : Storage) : (handle settings r s).log = [] := by
  have hanswer : (answer settings r s).log = [] := by
    rw [Request.call?] at h
    delta answer
    cases hroute : Route.ofRequest r with
    | endpoint e =>
        rw [hroute] at h
        exact Endpoint.log_of_call?_eq_none settings h s
    | _ => rfl
  rw [handle]
  generalize answer settings r s = exchange at hanswer
  split
  · rfl
  · dsimp only
    split <;> exact hanswer

/-- **A request that makes its change has it in the audit log**, and nothing else. All other requests
store nothing and are not in the audit log. -/
theorem audit_handle (settings : Settings) (r : Request) (s : Storage) :
    let exchange := handle settings r s
    (∃ t e c, s = .ready t ∧ r.change? settings = some c ∧ exchange.response.status < 300 ∧
      exchange.storage = .ready (e.replay t) ∧ audit exchange.log = [.event e]) ∨
    (300 ≤ exchange.response.status ∨ r.change? settings = none) ∧ exchange.storage = s ∧
      audit exchange.log = [] := by
  intro exchange
  cases hchange : r.change? settings with
  | none =>
      have hstorage : exchange.storage = s := by
        rcases handle_effect settings r s with hsame | ⟨-, c, hc, -⟩
        · exact hsame
        · rw [hchange] at hc
          cases hc
      refine .inr ⟨.inr rfl, hstorage, ?_⟩
      rw [Request.change?_eq] at hchange
      cases hcall : r.call? with
      | none => rw [show exchange.log = [] from log_handle_of_call?_eq_none settings hcall s]; rfl
      | some call =>
          rw [hcall] at hchange
          rw [show exchange = _ from handle_of_call settings hcall s]
          exact Call.audit_of_question hchange s
  | some c =>
      rw [Request.change?_eq] at hchange
      obtain ⟨call, hcall, hc⟩ := Option.bind_eq_some_iff.1 hchange
      rw [show exchange = _ from handle_of_call settings hcall s]
      obtain ⟨t, e, hs, hstatus, hstorage, hlog⟩ | ⟨hstatus, hstorage, hlog⟩ := Call.audits hc s
      · exact .inl ⟨t, e, c, hs, rfl, hstatus, hstorage, hlog⟩
      · exact .inr ⟨.inl hstatus, hstorage, hlog⟩

end Http

/-! ## The setup command -/

theorem Storage.ready_of_createTables {s opened : Storage} (h : s.createTables = .ok opened) :
    ∃ t, opened = .ready t := by
  cases s <;> cases h <;> exact ⟨_, rfl⟩

namespace Setup

@[simp] theorem audit_opening : audit opening = [] := rfl

@[simp] theorem audit_created (state : FeeState) : audit [created state] = [] := rfl

@[simp] theorem audit_warned : audit [warned] = [] := rfl

@[simp] theorem audit_failed (message : String) : audit [failed message] = [] := rfl

/-- The setup command with arguments leaves what an action is to leave. -/
theorem audit_runWith (settings : Settings) (arguments : Arguments) (s : Storage) :
    let report := runWith settings arguments s
    let Fails := report.exitCode ≠ 0 ∨ warned ∈ report.log
    (∃ t e c, s.Opened (.ready t) ∧ arguments.change? settings = some c ∧ ¬Fails ∧
      report.storage = .ready (e.replay t) ∧ audit report.log = [.event e]) ∨
    (Fails ∨ arguments.change? settings = none) ∧ s.Opened report.storage ∧
      audit report.log = [] := by
  intro report Fails
  cases htables : s.createTables with
  | error fault =>
      have hreport : report = ⟨1, s, [failed fault.message]⟩ := by
        simp only [report, runWith, htables]
      simp only [Fails, hreport]
      exact .inr ⟨.inl (.inl (by decide)), .inl rfl, audit_failed _⟩
  | ok opened =>
      have hopened := Storage.opened_of_createTables htables
      cases hc : arguments.change? settings with
      | none =>
          have hreport : report = ⟨0, opened, opening⟩ := by
            obtain ⟨owner, tokens⟩ := arguments
            cases owner with
            | absent => simp only [report, runWith, htables]; rfl
            | withoutValue => simp only [report, runWith, htables]; rfl
            | named owner =>
                have howner : owner = "" := by simpa [Arguments.change?] using hc
                simp only [report, runWith, htables, howner, if_true]
                rfl
          simp only [hreport]
          exact .inr ⟨.inr trivial, hopened, audit_opening⟩
      | some c =>
          obtain ⟨owner, tokens, rfl, howner, rfl⟩ := Arguments.of_change? hc
          obtain ⟨t, rfl⟩ := Storage.ready_of_createTables htables
          rcases houtcome : (Change.establish owner tokens
              (some settings.standardPercent)).outcome t with err | ⟨e, next⟩
          · have hreport : report = _ := runWith_of_outcome_error htables howner houtcome
            have hstored : report.storage = .ready t ∧ audit report.log = [] := by
              rw [hreport]
              split <;> exact ⟨rfl, by simp⟩
            have hfails : Fails := by
              by_cases herr : err = .alreadyInitialized
              · exact .inr (by simp [hreport, herr])
              · exact .inl (by simp [hreport, herr])
            rw [hstored.1]
            exact .inr ⟨.inl hfails, hopened, hstored.2⟩
          · have hreport : report = _ := runWith_of_outcome_ok htables howner houtcome
            refine .inl ⟨t, e, _, hopened, rfl, ?_, ?_, ?_⟩
            · simp only [Fails, hreport]
              rintro (hcode | hwarned)
              · exact hcode rfl
              · exact warned_not_mem_of_created e next hwarned
            · rw [hreport, (Change.establish_outcome houtcome).2]
            · simp [hreport]

/-- The setup command leaves what an action is to leave, whatever its command line. -/
theorem audit_run (settings : Settings) (argv : List String) (s : Storage) :
    let report := run settings argv s
    let Fails := report.exitCode ≠ 0 ∨ warned ∈ report.log
    (∃ t e c, s.Opened (.ready t) ∧ change? settings argv = some c ∧ ¬Fails ∧
      report.storage = .ready (e.replay t) ∧ audit report.log = [.event e]) ∨
    (Fails ∨ change? settings argv = none) ∧ s.Opened report.storage ∧ audit report.log = [] := by
  intro report Fails
  have hreport : report = run settings argv s := rfl
  rw [run] at hreport
  rw [change?]
  cases hparse : Arguments.parse argv with
  | error refused =>
      simp only [hparse] at hreport
      rw [hreport]
      exact .inr ⟨.inr rfl, .inl rfl, rfl⟩
  | ok arguments =>
      simp only [hparse] at hreport
      simp only [Fails, hreport]
      exact audit_runWith settings arguments s

end Setup

/-! ## Actions -/

namespace Action

/-- What an action logs. -/
def log : Action → Storage → List LogEntry
  | .step x, s => (x.run s).log
  | .request settings r, s => (Http.handle settings r s).log
  | .setup settings argv, s => (Setup.run settings argv s).log

/-- How an action and the audit log go together. -/
inductive Audited (a : Action) (s : Storage) : Prop where
  /-- The action makes its change, and the audit log has it once. -/
  | recorded (c : Change) (e : Event) (hchange : a.change? = some c) (hsuccess : ¬a.Fails s)
      (hrows : (a.after s).rows = e.replay s.rows) (hlog : audit (a.log s) = [.event e])
  /-- The action fails or asks for no change, and the audit log has nothing of it. -/
  | unrecorded (h : a.Fails s ∨ a.change? = none) (hrows : (a.after s).rows = s.rows)
      (hlog : audit (a.log s) = [])

theorem audited_step {x : Step} (hraw : x.isRaw = false) (s : Storage) :
    (Action.step x).Audited s := by
  cases hc : x.change? with
  | none =>
      refine .unrecorded (.inr hc) ?_ ((Step.logs_of_question hraw hc).audit_commit s)
      exact congrArg Storage.rows ((Step.quiet hraw hc).commit s)
  | some c =>
      obtain ⟨t, e, a, rfl, -, hok, hstorage, hlog⟩ | ⟨err, hcommit⟩ := (Step.records hc).commit s
      · refine .recorded c e hc ?_ (congrArg Storage.rows hstorage) hlog
        rintro ⟨err, herr⟩
        cases hok.symm.trans herr
      · have hrun : x.run s = ⟨.error err, s, []⟩ := hcommit
        exact .unrecorded (.inl ⟨err, by rw [hrun]⟩) (by rw [after, hrun]) (by rw [log, hrun]; rfl)

/-- **Each action is in the audit log if it makes a change, once, and not otherwise.** -/
theorem audited {a : Action} (hraw : a.isRaw = false) (s : Storage) : a.Audited s := by
  cases a with
  | step x => exact audited_step hraw s
  | request settings r =>
      obtain ⟨t, e, c, rfl, hc, hstatus, hstorage, hlog⟩ | ⟨h, hstorage, hlog⟩ :=
        Http.audit_handle settings r s
      · exact .recorded c e hc (Nat.not_le.2 hstatus) (congrArg Storage.rows hstorage) hlog
      · exact .unrecorded h (congrArg Storage.rows hstorage) hlog
  | setup settings argv =>
      obtain ⟨t, e, c, hopened, hc, hsuccess, hstorage, hlog⟩ | ⟨h, hopened, hlog⟩ :=
        Setup.audit_run settings argv s
      · refine .recorded c e hc hsuccess ?_ hlog
        rw [← Storage.rows_opened hopened]
        exact congrArg Storage.rows hstorage
      · exact .unrecorded h (Storage.rows_opened hopened) hlog

/-- **One action**: to replay its audit entries on the rows before it gives the rows after it. -/
theorem replay_audit_after {a : Action} (hraw : a.isRaw = false) (s : Storage) :
    (audit (a.log s)).foldl LogEntry.replay s.rows = (a.after s).rows := by
  cases audited hraw s with
  | recorded c e hchange hsuccess hrows hlog =>
      rw [hlog, hrows]
      rfl
  | unrecorded h hrows hlog =>
      rw [hlog, hrows]
      rfl

/-! ## Histories -/

/-- What a history logs. -/
def logAll : List Action → Storage → List LogEntry
  | [], _ => []
  | a :: rest, s => a.log s ++ logAll rest (a.after s)

/-- Replaying the audit log of a history on the rows at its start gives the rows at its end. -/
theorem replay_audit_afterAll {history : List Action} (hraw : ∀ a ∈ history, a.isRaw = false)
    (s : Storage) :
    (audit (logAll history s)).foldl LogEntry.replay s.rows = (afterAll history s).rows := by
  induction history generalizing s with
  | nil => rfl
  | cons a rest ih =>
      obtain ⟨ha, hrest⟩ := List.forall_mem_cons.1 hraw
      rw [logAll, audit_append, List.foldl_append, replay_audit_after ha, ih hrest]
      rfl

/-- Every audit entry of a history is an event of sound values. By induction, since each is about
rows that an action has left. -/
theorem sound_audit {history : List Action} (hraw : ∀ a ∈ history, a.isRaw = false)
    {s : Storage} (hs : s.rows.Sound) :
    ∀ entry ∈ audit (logAll history s), ∃ e : Event, entry = .event e ∧ e.Sound := by
  induction history generalizing s with
  | nil => exact nofun
  | cons a rest ih =>
      obtain ⟨ha, hrest⟩ := List.forall_mem_cons.1 hraw
      have hafter : (a.after s).rows.Sound := sound_after ha hs
      intro entry hentry
      rw [logAll, audit_append, List.mem_append] at hentry
      rcases hentry with hfirst | hlater
      · cases audited ha s with
        | recorded c e hchange hsuccess hrows hlog =>
            rw [hlog, List.mem_singleton] at hfirst
            rw [hrows] at hafter
            exact ⟨e, hfirst, Event.sound_of_replay hafter⟩
        | unrecorded h hrows hlog =>
            rw [hlog] at hfirst
            cases hfirst
      · exact ih hrest hafter entry hlater

/-- **The audit log reconstructs the rows.** At every point of a history that begins with fresh
storage, replaying the audit log from nothing gives the rows that are stored. An action that fails
or asks for no change adds no entry to it, and one that makes its change adds exactly one. Nor need
the entries be kept as such: where the messages in the audit log are the same, so are the rows. -/
theorem history_audited {start : Storage} (hstart : start.IsFresh) {history : List Action}
    (hraw : ∀ a ∈ history, a.isRaw = false) :
    let s := afterAll history start
    let entries := audit (logAll history start)
    entries.foldl LogEntry.replay .fresh = s.rows ∧
      (∀ a : Action, a.isRaw = false →
        (a.Fails s ∨ a.change? = none → audit (a.log s) = []) ∧
        (¬a.Fails s → a.change?.isSome → ∃ e, audit (a.log s) = [.event e])) ∧
      ∀ (others : List Action) (start' : Storage), start'.IsFresh →
        (∀ a ∈ others, a.isRaw = false) →
        (audit (logAll others start')).map LogEntry.message = entries.map LogEntry.message →
          (afterAll others start').rows = s.rows := by
  intro s entries
  have hsound {start' : Storage} (h : start'.IsFresh) : start'.rows.Sound := by
    rw [h.rows]
    exact Tables.sound_fresh
  have hreplay : entries.foldl LogEntry.replay .fresh = s.rows := by
    rw [← hstart.rows]
    exact replay_audit_afterAll hraw start
  refine ⟨hreplay, fun a ha => ?_, fun others start' hstart' hothers hmessages => ?_⟩
  · cases audited ha s with
    | recorded c e hchange hsuccess hrows hlog =>
        refine ⟨?_, fun _ _ => ⟨e, hlog⟩⟩
        rintro (hfails | hnone)
        · exact absurd hfails hsuccess
        · rw [hchange] at hnone
          cases hnone
    | unrecorded h hrows hlog =>
        refine ⟨fun _ => hlog, fun hsuccess hsome => ?_⟩
        rcases h with hfails | hnone
        · exact absurd hfails hsuccess
        · rw [hnone] at hsome
          cases hsome
  · have hentries : audit (logAll others start') = entries :=
      eq_of_messages (sound_audit hothers (hsound hstart')) (sound_audit hraw (hsound hstart))
        hmessages
    rw [← replay_audit_afterAll hothers, hentries, hstart'.rows, hreplay]

/-- The setup command creates the fee state, someone else asks for another percent in vain, the
owner asks for one and removes the token. -/
theorem history_audited_removal :
    let history : List Action :=
      [.setup {} ["--owner", "owner.near", "usdt.near"], .step (.setPercent "mallory.near" "1"),
        .step (.setPercent "owner.near" "7.5"), .step (.removeToken "usdt.near")]
    let entries := audit (logAll history .bare)
    Storage.bare.IsFresh ∧ (∀ a ∈ history, a.isRaw = false) ∧
      entries = [.event (.initialized ⟨"owner.near", 500, .ofList ["usdt.near"]⟩),
        .event (.percentSet 750 "owner.near"), .event (.tokenRemoved "usdt.near")] ∧
      entries.foldl LogEntry.replay .fresh = (afterAll history .bare).rows := by
  intro history entries
  have hfresh : Storage.bare.IsFresh := .inl rfl
  have hraw : ∀ a ∈ history, a.isRaw = false := by decide
  exact ⟨hfresh, hraw, rfl, (history_audited hfresh hraw).1⟩

end Action

end TransferFees
