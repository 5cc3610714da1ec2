import TransferFees.Proofs.Exchanges
import TransferFees.Proofs.Recording

/-!
# Actions and histories

Storage is reached in three ways: by the steps of sessions, by requests, and by the setup command.
One use of one of them is an action, and a history is a list of actions. Each way has its own place
where a failure drops the draft. That it is dropped everywhere is `Action.storage_of_fails`; what is
stored where it is not dropped is `Action.effect`.
-/

namespace TransferFees

/-! ## The setup command -/

namespace Storage

/-- The storage `opened` is `s`, or the fresh tables that were created where there were none. -/
def Opened (s opened : Storage) : Prop := opened = s ∨ s = .bare ∧ opened = .ready .fresh

/-- To create tables where some are changes nothing. -/
theorem opened_of_createTables {s opened : Storage} (h : s.createTables = .ok opened) :
    s.Opened opened := by
  cases s with
  | bare =>
      cases h
      exact .inr ⟨rfl, rfl⟩
  | ready t =>
      cases h
      exact .inl rfl
  | broken => cases h

/-- Tables that are there are not created. -/
theorem Opened.eq_of_ready {t : Tables} {opened : Storage} (h : Opened (.ready t) opened) :
    opened = .ready t := by
  rcases h with rfl | ⟨hbare, -⟩
  · rfl
  · cases hbare

end Storage

namespace Setup

/-- The change that the arguments ask for, if they ask for one. -/
def Arguments.change? (settings : Settings) : Arguments → Option Change
  | ⟨.named owner, tokens⟩ =>
    if owner = "" then none else some (.establish owner tokens (some settings.standardPercent))
  | _ => none

/-- Arguments that ask for a change name an owner, and the change is to create the fee state. -/
theorem Arguments.of_change? {settings : Settings} {arguments : Arguments} {c : Change}
    (h : arguments.change? settings = some c) :
    ∃ owner tokens, arguments = ⟨.named owner, tokens⟩ ∧ owner ≠ "" ∧
      c = .establish owner tokens (some settings.standardPercent) := by
  obtain ⟨owner, tokens⟩ := arguments
  cases owner with
  | absent => cases h
  | withoutValue => cases h
  | named owner =>
      obtain ⟨howner, hc⟩ := Option.ite_none_left_eq_some.1 h
      cases hc
      exact ⟨owner, tokens, rfl, howner, rfl⟩

/-- The change that a command line asks for, if it asks for one. -/
def change? (settings : Settings) (argv : List String) : Option Change :=
  (Arguments.parse argv).toOption.bind (Arguments.change? settings)

/-- A command line asks for a change by naming an owner. -/
theorem of_change? {settings : Settings} {argv : List String} {c : Change}
    (h : change? settings argv = some c) :
    ∃ owner tokens, Arguments.parse argv = .ok ⟨.named owner, tokens⟩ ∧ owner ≠ "" ∧
      c = .establish owner tokens (some settings.standardPercent) := by
  rw [change?] at h
  cases hparse : Arguments.parse argv with
  | error refused =>
      rw [hparse] at h
      cases h
  | ok arguments =>
      rw [hparse] at h
      obtain ⟨owner, tokens, rfl, howner, hc⟩ := Arguments.of_change? h
      exact ⟨owner, tokens, rfl, howner, hc⟩

/-- The command tells neither of an error nor of a warning. -/
def Report.Smooth (report : Report) : Prop :=
  report.exitCode = 0 ∧ ∀ entry ∈ report.log, entry.level = .info

section
variable {settings : Settings} {owner : String} {tokens : List String} {s opened : Storage}

theorem runWith_of_ok (htables : s.createTables = .ok opened) (howner : owner ≠ "")
    (h : ((establish settings owner tokens).commit opened).result = .ok ()) :
    runWith settings ⟨.named owner, tokens⟩ s =
      let outcome := (establish settings owner tokens).commit opened
      ⟨0, outcome.storage, [tablesCreated,
        .note .info .setup "Database initialized successfully"] ++ outcome.log⟩ := by
  simp only [runWith, htables, howner, if_false, h]

theorem storage_runWith (htables : s.createTables = .ok opened) (howner : owner ≠ "") :
    (runWith settings ⟨.named owner, tokens⟩ s).storage =
      ((establish settings owner tokens).commit opened).storage := by
  simp only [runWith, htables, howner, if_false]
  split <;> rfl

/-- The unit of work of the setup command stores what its change stores: it only adds a note. -/
theorem storesLike_establish (settings : Settings) (owner : String) (tokens : List String) :
    (establish settings owner tokens).StoresLike
      (Service.change (.establish owner tokens (some settings.standardPercent))) :=
  (Work.StoresLike.refl _).bind fun _ => Work.quiet_record _

/-- Where a fee state is created, the command tells of nothing else. -/
theorem runWith_effect (htables : s.createTables = .ok opened) (howner : owner ≠ "") :
    let report := runWith settings ⟨.named owner, tokens⟩ s
    report.storage = opened ∨ report.Smooth ∧
      (Change.establish owner tokens (some settings.standardPercent)).Made opened
        report.storage := by
  intro report
  have hstorage : report.storage = ((establish settings owner tokens).commit opened).storage :=
    storage_runWith htables howner
  rw [hstorage]
  rcases (storesLike_establish settings owner tokens).made opened with hsame | ⟨⟨done, hok⟩, hmade⟩
  · exact .inl hsame
  · refine .inr ⟨?_, hmade⟩
    have hreport := runWith_of_ok htables howner hok
    have hlog := (logs_establish settings owner tokens).commit opened
    rw [Report.Smooth, show report = _ from hreport]
    refine ⟨rfl, fun entry hentry => ?_⟩
    rcases List.mem_append.1 hentry with hopening | hlater
    · simp only [List.mem_cons, List.not_mem_nil, or_false] at hopening
      rcases hopening with rfl | rfl <;> rfl
    · exact hlog entry hlater

end

/-- **The setup command creates missing tables, and beyond that stores something only if all goes
well.** -/
theorem run_effect (settings : Settings) (argv : List String) (s : Storage) :
    let report := run settings argv s
    ∃ opened, s.Opened opened ∧ (report.storage = opened ∨
      report.Smooth ∧ ∃ c, change? settings argv = some c ∧ c.Made opened report.storage) := by
  intro report
  have hreport : report = run settings argv s := rfl
  rw [run] at hreport
  cases hparse : Arguments.parse argv with
  | error refused =>
      simp only [hparse] at hreport
      exact ⟨s, .inl rfl, .inl (by rw [hreport])⟩
  | ok arguments =>
      simp only [hparse] at hreport
      have hchange : change? settings argv = arguments.change? settings := by
        rw [change?, hparse]
        rfl
      rw [hreport, hchange]
      cases htables : s.createTables with
      | error fault =>
          refine ⟨s, .inl rfl, .inl ?_⟩
          simp only [runWith, htables]
      | ok opened =>
          refine ⟨opened, Storage.opened_of_createTables htables, ?_⟩
          obtain ⟨owner, tokens⟩ := arguments
          cases owner with
          | absent => exact .inl (by simp only [runWith, htables])
          | withoutValue => exact .inl (by simp only [runWith, htables])
          | named owner =>
              by_cases howner : owner = ""
              · exact .inl (by simp only [runWith, htables, howner, if_true])
              · rcases runWith_effect htables howner with hsame | ⟨hsmooth, hmade⟩
                · exact .inl hsame
                · exact .inr ⟨hsmooth, _, if_neg howner, hmade⟩

end Setup

/-! ## Actions -/

/-- One use of a step, of the HTTP interface, or of the setup command. -/
inductive Action where
  | step (x : Step)
  | request (settings : Settings) (r : Http.Request)
  | setup (settings : Settings) (argv : List String)

namespace Action

/-- What is stored after an action. -/
def after : Action → Storage → Storage
  | .step x, s => (x.run s).storage
  | .request settings r, s => (Http.handle settings r s).storage
  | .setup settings argv, s => (Setup.run settings argv s).storage

/-- What counts as a failure: an error, a status of 300 or more, an exit code other than zero, or
the warning of the setup command that there is a fee state already. -/
def Fails : Action → Storage → Prop
  | .step x, s => ∃ e, (x.run s).result = .error e
  | .request settings r, s => 300 ≤ (Http.handle settings r s).response.status
  | .setup settings argv, s =>
    (Setup.run settings argv s).exitCode ≠ 0 ∨
      .note .warning .setup FeeError.alreadyInitialized.message ∈ (Setup.run settings argv s).log

/-- The action writes rows without asking the service. -/
def isRaw : Action → Bool
  | .step x => x.isRaw
  | _ => false

/-- The change that an action asks the service for, if it asks for one. -/
def change? : Action → Option Change
  | .step x => x.change?
  | .request settings r => r.change? settings
  | .setup settings argv => Setup.change? settings argv

/-- **What an action stores.** Apart from missing tables that are created it stores nothing, or it
does not fail and its one change is made. -/
theorem effect {a : Action} (hraw : a.isRaw = false) (s : Storage) :
    ∃ opened, s.Opened opened ∧ (a.after s = opened ∨
      ¬a.Fails s ∧ ∃ c, a.change? = some c ∧ c.Made opened (a.after s)) := by
  cases a with
  | step x =>
      refine ⟨s, .inl rfl, ?_⟩
      rcases x.effect hraw s with hsame | ⟨⟨answer, hok⟩, hmade⟩
      · exact .inl hsame
      · refine .inr ⟨?_, hmade⟩
        rintro ⟨e, he⟩
        rw [hok] at he
        cases he
  | request settings r =>
      refine ⟨s, .inl rfl, ?_⟩
      rcases Http.handle_effect settings r s with hsame | ⟨hstatus, hmade⟩
      · exact .inl hsame
      · exact .inr ⟨Nat.not_le.2 hstatus, hmade⟩
  | setup settings argv =>
      obtain ⟨opened, hopened, heffect⟩ := Setup.run_effect settings argv s
      refine ⟨opened, hopened, ?_⟩
      rcases heffect with hsame | ⟨⟨hcode, hlog⟩, hmade⟩
      · exact .inl hsame
      · refine .inr ⟨?_, hmade⟩
        rintro (hfailed | hwarned)
        · exact hfailed hcode
        · cases hlog _ hwarned

/-- **A failed action changes nothing**, except that the setup command creates missing tables. -/
theorem storage_of_fails (a : Action) (s : Storage) (h : a.Fails s) :
    a.after s = s ∨
      (∃ settings argv, a = .setup settings argv) ∧ s = .bare ∧ a.after s = .ready .fresh := by
  cases a with
  | step x =>
      obtain ⟨e, he⟩ := h
      exact .inl (Work.storage_of_commit_error he)
  | request settings r =>
      rcases Http.handle_effect settings r s with hsame | ⟨hstatus, -⟩
      · exact .inl hsame
      · exact absurd h (Nat.not_le.2 hstatus)
  | setup settings argv =>
      obtain ⟨opened, hopened, heffect⟩ := effect (a := .setup settings argv) rfl s
      have hsame : (Action.setup settings argv).after s = opened := by
        rcases heffect with hsame | ⟨hnot, -⟩
        · exact hsame
        · exact absurd h hnot
      rw [hsame]
      rcases hopened with rfl | ⟨hbare, hfresh⟩
      · exact .inl rfl
      · exact .inr ⟨⟨settings, argv, rfl⟩, hbare, hfresh⟩

/-- A fee state is written next to a token that was there before any fee row and is no account id:
the row and a token are written before the state that is read back is refused. -/
theorem storage_of_refused_create :
    let t : Tables := ⟨none, .ofList ["no id"]⟩
    let a : Action := .step (.createState "alice.near" 250 ["usdt.near"])
    a.Fails (.ready t) ∧ (a.after (.ready t) = .ready t ∨
      (∃ settings argv, a = .setup settings argv) ∧ Storage.ready t = .bare ∧
        a.after (.ready t) = .ready .fresh) := by
  intro t a
  have hfails : a.Fails (.ready t) := ⟨_, rfl⟩
  exact ⟨hfails, storage_of_fails a (.ready t) hfails⟩

end Action

end TransferFees
