import TransferFees.Proofs.Recording

/-!
# One session and many

The steps of a list may be run in one session, or each in a session of its own. Both give the same
results up to the first failure: what a step has written is there for the next, committed or not.
They differ in what a failure undoes. In one session it undoes the steps before it as well, back to
the storage that the session began with.
-/

namespace TransferFees

namespace Step

/-- Runs steps one after the other, each in a session of its own: what each gives, and what is
stored after it. -/
def runEach : List Step → Storage → List (Except FeeError Answer × Storage)
  | [], _ => []
  | step :: rest, s =>
    let outcome := step.run s
    (outcome.result, outcome.storage) :: runEach rest outcome.storage

/-- What is stored when steps have been run one after the other, each in a session of its own. -/
def storageAfter (steps : List Step) (s : Storage) : Storage :=
  steps.foldl (fun s step => (step.run s).storage) s

theorem storageAfter_append (steps later : List Step) (s : Storage) :
    storageAfter (steps ++ later) s = storageAfter later (storageAfter steps s) :=
  List.foldl_append

/-- Later steps begin where the earlier ones have ended. -/
theorem runEach_append (steps later : List Step) (s : Storage) :
    runEach (steps ++ later) s = runEach steps s ++ runEach later (storageAfter steps s) := by
  induction steps generalizing s with
  | nil => rfl
  | cons step rest ih => simp only [List.cons_append, runEach, ih]; rfl

end Step

namespace Session

/-- Results up to the first failure, which is among them. -/
def upToFailure : List (Except FeeError Answer) → List (Except FeeError Answer)
  | [] => []
  | .ok a :: rest => .ok a :: upToFailure rest
  | .error e :: _ => [.error e]

theorem all_succeeded_upToFailure (results : List (Except FeeError Answer)) :
    (upToFailure results).all succeeded = results.all succeeded := by
  induction results with
  | nil => rfl
  | cons r rest ih =>
      cases r with
      | ok a => rw [upToFailure, List.all_cons, List.all_cons, ih]
      | error e => simp [upToFailure, succeeded]

/-- A step in a session of its own leaves behind what it leaves in any draft. -/
theorem run_of_work {step : Step} {s s' : Storage} {a : Answer} {entries : List LogEntry}
    (h : ∀ log, step.work ⟨s, log⟩ = (.ok a, ⟨s', log ++ entries⟩)) :
    step.run s = ⟨.ok a, s', entries⟩ :=
  Work.commit_of_ok (h [])

/-- The induction is on the steps. A draft and its log are handed on to the steps that follow, so
both are arbitrary; that the log makes no difference is `Step.logs_work`. -/
theorem runSteps_eq (steps : List Step) (s : Storage) (log : List LogEntry) :
    (runSteps steps ⟨s, log⟩).1 = upToFailure ((Step.runEach steps s).map Prod.fst) ∧
      (((Step.runEach steps s).map Prod.fst).all succeeded = true →
        (runSteps steps ⟨s, log⟩).2.storage = Step.storageAfter steps s) := by
  induction steps generalizing s log with
  | nil => exact ⟨rfl, fun _ => rfl⟩
  | cons step rest ih =>
      obtain ⟨r, s', entries, -, hw⟩ := step.logs_work s
      cases r with
      | ok a =>
          have hrun : step.run s = ⟨.ok a, s', entries⟩ := run_of_work hw
          obtain ⟨hresults, hstorage⟩ := ih s' (log ++ entries)
          have hsteps : runSteps (step :: rest) ⟨s, log⟩ =
              (.ok a :: (runSteps rest ⟨s', log ++ entries⟩).1,
                (runSteps rest ⟨s', log ++ entries⟩).2) := by
            rw [runSteps, hw log]
          have heach : Step.runEach (step :: rest) s = (.ok a, s') :: Step.runEach rest s' := by
            simp only [Step.runEach, hrun]
          have hafter : Step.storageAfter (step :: rest) s = Step.storageAfter rest s' := by
            simp only [Step.storageAfter, List.foldl_cons, hrun]
          rw [hsteps, heach, hafter]
          refine ⟨?_, fun hall => ?_⟩
          · rw [List.map_cons, upToFailure, hresults]
          · rw [List.map_cons, List.all_cons, Bool.and_eq_true] at hall
            exact hstorage hall.2
      | error e =>
          have hrun : step.run s = ⟨.error e, s, entries⟩ := Work.commit_of_error (hw [])
          have hsteps : runSteps (step :: rest) ⟨s, log⟩ = ([.error e], ⟨s', log ++ entries⟩) := by
            rw [runSteps, hw log]
          have heach : Step.runEach (step :: rest) s = (.error e, s) :: Step.runEach rest s := by
            simp only [Step.runEach, hrun]
          rw [hsteps, heach]
          refine ⟨rfl, fun hall => ?_⟩
          rw [List.map_cons, List.all_cons, succeeded, Bool.false_and] at hall
          cases hall

/-- **A session is all or nothing.** It gives the results that its steps give in sessions of their
own, up to the first failure. If there is none, and the session is not called off, then what those
sessions leave behind is stored; otherwise nothing is. -/
theorem run_eq_runEach (steps : List Step) (calledOff : Bool) (s : Storage) :
    let apart := (Step.runEach steps s).map Prod.fst
    let report := run steps calledOff s
    report.results = upToFailure apart ∧
      report.committed = (apart.all succeeded && !calledOff) ∧
      report.storage = if report.committed then Step.storageAfter steps s else s := by
  intro apart report
  obtain ⟨hresults, hstorage⟩ := runSteps_eq steps s []
  have hreport : report.results = upToFailure apart := hresults
  have hcommitted : report.committed = (apart.all succeeded && !calledOff) := by
    calc report.committed = (report.results.all succeeded && !calledOff) := rfl
      _ = (apart.all succeeded && !calledOff) := by rw [hreport, all_succeeded_upToFailure]
  refine ⟨hreport, hcommitted, ?_⟩
  have hkept : report.storage =
      if report.committed then (runSteps steps ⟨s, []⟩).2.storage else s := rfl
  rw [hkept]
  split
  · rename_i h
    rw [hcommitted, Bool.and_eq_true] at h
    exact hstorage h.1
  · rfl

end Session

end TransferFees
