import TransferFees.Proofs.Work
import TransferFees.Session
import TransferFees.Setup

/-!
# What units of work write to the log

Reading and writing rows logs nothing, and the service logs events only. So none of it depends on
what the log holds already (`Step.logs_work`): a step does the same at the start of a session as
behind other steps. The setup command adds a note, which is no warning either.
-/

namespace TransferFees

open Work

/-- The entry tells of a stored change. -/
def LogEntry.IsEvent (entry : LogEntry) : Prop := ∃ e, entry = .event e

namespace Ledger

variable {P : LogEntry → Prop}

theorem logs_tokens : tokens.Logs P := (logs_readTables _).bind fun _ => logs_pure _

/-- Writing a token logs nothing, whether it is refused or not. -/
theorem logs_addToken (id : Option String) : (addToken id).Logs P := by
  refine (logs_readTables _).bind fun t => ?_
  cases id with
  | none => exact logs_fail _
  | some id =>
      dsimp only
      split
      · exact logs_fail _
      · exact logs_writeTables _

theorem logs_removeToken (id : String) : (removeToken id).Logs P := by
  refine (logs_readTables _).bind fun t => ?_
  split
  · exact logs_writeTables _
  · exact logs_fail _

/-- The tokens of a row are read, and what they make together is checked, without a word. -/
theorem logs_stateOf (row : FeeRow) : (stateOf row).Logs P :=
  logs_tokens.bind fun _ => logs_ofExcept _

/-- Loading logs nothing, so a state that cannot be loaded is only told of by who asked for it. -/
theorem logs_load : load.Logs P := by
  refine (logs_readTables _).bind fun t => ?_
  split
  · exact logs_pure _
  · exact (logs_stateOf _).bind fun _ => logs_pure _

/-- By the recursion on the list: each token is written as one alone would be. -/
theorem logs_addTokens : ∀ ids : List String, (addTokens ids).Logs P
  | [] => logs_pure _
  | id :: rest => (logs_addToken (some id)).bind fun _ => logs_addTokens rest

/-- Creating logs nothing by itself, although it writes, reads back, and may fail at any stage. -/
theorem logs_create (state : FeeState) : (create state).Logs P := by
  refine (logs_readTables _).bind fun t => ?_
  split
  · exact logs_fail _
  · refine (logs_writeTables _).bind fun _ => ?_
    exact (logs_addTokens _).bind fun _ => logs_stateOf _

theorem logs_setPercent (value : Int) : (setPercent value).Logs P := by
  refine (logs_readTables _).bind fun t => ?_
  split
  · exact logs_writeTables _
  · exact logs_fail _

end Ledger

theorem logs_event (e : Event) : (record (.event e)).Logs LogEntry.IsEvent :=
  logs_record ⟨e, rfl⟩

/-- Every plan ends in the event that it settled on, and all that comes before is silent. -/
theorem Plan.logs_carryOut (plan : Plan) : plan.carryOut.Logs LogEntry.IsEvent := by
  unfold Plan.carryOut
  split
  · exact (Ledger.logs_create _).bind fun _ => (logs_event _).bind fun _ => logs_pure _
  · exact (Ledger.logs_setPercent _).bind fun _ => (logs_event _).bind fun _ => logs_pure _
  · exact (Ledger.logs_addToken _).bind fun _ => (logs_event _).bind fun _ => logs_pure _
  · exact (Ledger.logs_removeToken _).bind fun _ => (logs_event _).bind fun _ => logs_pure _

namespace Service

variable {P : LogEntry → Prop}

theorem logs_loadState : loadState.Logs P :=
  Ledger.logs_load.bind fun _ => logs_ofExcept _

/-- **A change** logs the event of its plan, or nothing if it comes to no plan or cannot be carried
out. -/
theorem logs_change (c : Change) : (change c).Logs LogEntry.IsEvent :=
  Ledger.logs_load.bind fun _ => (logs_ofExcept _).bind fun plan => plan.logs_carryOut

/-- What is given back after a change adds no entry, here and for the tokens. -/
theorem logs_setPercent (caller text : String) :
    (setPercent caller text).Logs LogEntry.IsEvent :=
  (logs_change _).bind fun _ => logs_ofExcept _

theorem logs_addToken (id : String) : (addToken id).Logs LogEntry.IsEvent :=
  (logs_change _).bind fun _ => logs_pure _

theorem logs_removeToken (id : String) : (removeToken id).Logs LogEntry.IsEvent :=
  (logs_change _).bind fun _ => logs_pure _

/-- The three questions log nothing at all. -/
theorem logs_fee (t : Transfer) : (fee t).Logs P :=
  logs_loadState.bind fun _ => logs_ofExcept _

theorem logs_percentText : percentText.Logs P :=
  logs_loadState.bind fun _ => logs_ofExcept _

theorem logs_listTokens : listTokens.Logs P :=
  logs_loadState.bind fun _ => logs_pure _

end Service

/-- **A step logs events only, and does the same whatever the log holds.** -/
theorem Step.logs_work (step : Step) : step.work.Logs LogEntry.IsEvent := by
  cases step with
  | establish caller tokens standard => exact (Service.logs_change _).bind fun _ => logs_pure _
  | fee t => exact (Service.logs_fee t).bind fun _ => logs_pure _
  | setPercent caller text => exact (Service.logs_setPercent caller text).bind fun _ => logs_pure _
  | percentText => exact Service.logs_percentText.bind fun _ => logs_pure _
  | listTokens => exact Service.logs_listTokens.bind fun _ => logs_pure _
  | addToken id => exact (Service.logs_addToken id).bind fun _ => logs_pure _
  | removeToken id => exact (Service.logs_removeToken id).bind fun _ => logs_pure _
  | loadState => exact Service.logs_loadState.bind fun _ => logs_pure _
  | readState => exact Ledger.logs_load.bind fun _ => logs_pure _
  | createState owner percent tokens =>
      exact (logs_ofExcept _).bind fun state => (Ledger.logs_create state).bind fun _ => logs_pure _
  | writePercent value => exact (Ledger.logs_setPercent value).bind fun _ => logs_pure _
  | readTokens => exact Ledger.logs_tokens.bind fun _ => logs_pure _
  | writeToken id => exact (Ledger.logs_addToken id).bind fun _ => logs_pure _
  | deleteToken id => exact (Ledger.logs_removeToken id).bind fun _ => logs_pure _

/-- Creating the fee state by the setup command logs nothing but information. -/
theorem Setup.logs_establish (settings : Settings) (owner : String) (tokens : List String) :
    (Setup.establish settings owner tokens).Logs fun entry => entry.level = .info := by
  refine ((Service.logs_change _).mono ?_).bind fun state => logs_record rfl
  rintro entry ⟨e, rfl⟩
  rfl

end TransferFees
