import TransferFees.Proofs.Changes
import TransferFees.Session

/-!
# What the service stores

The service stores by `Service.change` and by nothing else. Its three questions and everything that
comes after a change are quiet, so each operation stores what one change stores
(`Work.StoresLike`), or nothing at all. The same is then said of the steps of a session, apart from
those that write rows themselves.
-/

namespace TransferFees

open Work

/-- The change succeeds on the tables in `s`, and `s'` is what is stored after it. -/
def Change.Made (c : Change) (s s' : Storage) : Prop :=
  ∃ t e next, s = .ready t ∧ c.outcome t = .ok (e, next) ∧ s' = .ready (e.replay t)

/-- In whose name the change is made, if that matters. -/
def Change.caller? : Change → Option String
  | .establish caller _ _ => some caller
  | .setPercent caller _ => some caller
  | _ => none

/-- What a change leaves on the rows of a valid state is what was planned there. -/
theorem Change.Made.storage_of_plan {c : Change} {state : FeeState} {plan : Plan} {s : Storage}
    (h : c.Made (.ready state.tables) s) (hstate : state.Valid)
    (hplan : c.plan (some state) = .ok plan) : s = .ready plan.next.tables := by
  obtain ⟨t, e, next, ht, houtcome, rfl⟩ := h
  cases ht
  rw [outcome_of_valid hstate, hplan] at houtcome
  cases houtcome
  exact congrArg Storage.ready (planned hplan).replay

/-- Only storage with its tables, and in order, has contents. -/
theorem Storage.contents?_eq_some {s : Storage} {t : Tables} (h : s.contents? = some t) :
    s = .ready t := by
  cases s with
  | ready t' =>
      cases h
      rfl
  | bare => cases h
  | broken => cases h

namespace Service

/-- A change by the service that succeeds has been made: on other storage it does not succeed, and
on tables it computes the outcome. -/
theorem made_of_commit {c : Change} {s : Storage} {a : FeeState}
    (h : ((change c).commit s).result = .ok a) : c.Made s ((change c).commit s).storage := by
  cases hs : s.contents? with
  | none =>
      obtain ⟨e, he⟩ := change_unready (l := []) hs c
      rw [commit_of_error he] at h
      cases h
  | some t =>
      obtain rfl := Storage.contents?_eq_some hs
      rcases houtcome : c.outcome t with e | ⟨e, next⟩
      · obtain ⟨s', hchange⟩ := change_error (l := []) houtcome
        rw [commit_of_error hchange] at h
        cases h
      · have hchange := change_ok (l := []) houtcome
        rw [commit_of_ok hchange]
        exact ⟨t, e, next, rfl, houtcome, rfl⟩

end Service

namespace Work.StoresLike

variable {α : Type} {w : Work α} {c : Change}

/-- A unit of work that stores like a change makes it when it succeeds. -/
theorem made_of_ok (hw : w.StoresLike (Service.change c)) {s : Storage} {a : α}
    (h : (w.commit s).result = .ok a) : c.Made s (w.commit s).storage := by
  obtain ⟨next, hnext, hstorage⟩ := hw.commit h
  rw [hstorage]
  exact Service.made_of_commit hnext

/-- **Nothing is stored, or the work has succeeded and its change is made.** There is nothing in
between, since a failure drops the draft. -/
theorem made (hw : w.StoresLike (Service.change c)) (s : Storage) :
    (w.commit s).storage = s ∨
      (∃ a, (w.commit s).result = .ok a) ∧ c.Made s (w.commit s).storage := by
  cases h : (w.commit s).result with
  | ok a => exact .inr ⟨⟨a, rfl⟩, hw.made_of_ok h⟩
  | error e => exact .inl (storage_of_commit_error h)

end Work.StoresLike

/-! ## The operations of the service -/

namespace Ledger

/-- Reading is quiet: rows are looked at and left alone. -/
theorem quiet_tokens : tokens.Quiet := (quiet_readTables _).bind fun _ => quiet_pure _

/-- Loading a fee state is quiet whatever it comes to, also where the rows make none. -/
theorem quiet_load : load.Quiet := by
  refine (quiet_readTables _).bind fun t => ?_
  split
  · exact quiet_pure _
  · exact (quiet_tokens.bind fun _ => quiet_ofExcept _).bind fun _ => quiet_pure _

end Ledger

namespace Service

theorem quiet_loadState : loadState.Quiet := Ledger.quiet_load.bind fun _ => quiet_ofExcept _

theorem quiet_fee (t : Transfer) : (fee t).Quiet := quiet_loadState.bind fun _ => quiet_ofExcept _

theorem quiet_percentText : percentText.Quiet := quiet_loadState.bind fun _ => quiet_ofExcept _

theorem quiet_listTokens : listTokens.Quiet := quiet_loadState.bind fun _ => quiet_pure _

/-- What an operation gives back is computed after its change and is quiet, so it stores what the
change stores. -/
theorem storesLike_setPercent (caller text : String) :
    (setPercent caller text).StoresLike (change (.setPercent caller text)) :=
  (StoresLike.refl _).bind fun _ => quiet_ofExcept _

theorem storesLike_addToken (id : String) : (addToken id).StoresLike (change (.addToken id)) :=
  (StoresLike.refl _).bind fun _ => quiet_pure _

theorem storesLike_removeToken (id : String) :
    (removeToken id).StoresLike (change (.removeToken id)) :=
  (StoresLike.refl _).bind fun _ => quiet_pure _

end Service

/-! ## The steps of a session -/

namespace Step

/-- The step writes rows without asking the service. -/
def isRaw : Step → Bool
  | .createState .. | .writePercent _ | .writeToken _ | .deleteToken _ => true
  | _ => false

/-- The change that a step asks the service for, if it asks for one. -/
def change? : Step → Option Change
  | .establish caller tokens standard => some (.establish caller tokens standard)
  | .setPercent caller text => some (.setPercent caller text)
  | .addToken id => some (.addToken id)
  | .removeToken id => some (.removeToken id)
  | _ => none

/-- A step that asks for a change stores what the change stores. -/
theorem storesLike {step : Step} {c : Change} (h : step.change? = some c) :
    step.work.StoresLike (Service.change c) := by
  cases step <;> simp only [change?, Option.some.injEq, reduceCtorEq] at h <;> subst h
  case establish => exact (StoresLike.refl _).bind fun _ => quiet_pure _
  case setPercent => exact (Service.storesLike_setPercent _ _).bind fun _ => quiet_pure _
  case addToken => exact (Service.storesLike_addToken _).bind fun _ => quiet_pure _
  case removeToken => exact (Service.storesLike_removeToken _).bind fun _ => quiet_pure _

/-- A step that asks for none, and writes no rows itself, stores nothing. -/
theorem quiet {step : Step} (hraw : step.isRaw = false) (h : step.change? = none) :
    step.work.Quiet := by
  cases step <;> simp only [change?, isRaw, reduceCtorEq] at h hraw
  case fee t => exact (Service.quiet_fee t).bind fun _ => quiet_pure _
  case percentText => exact Service.quiet_percentText.bind fun _ => quiet_pure _
  case listTokens => exact Service.quiet_listTokens.bind fun _ => quiet_pure _
  case loadState => exact Service.quiet_loadState.bind fun _ => quiet_pure _
  case readState => exact Ledger.quiet_load.bind fun _ => quiet_pure _
  case readTokens => exact Ledger.quiet_tokens.bind fun _ => quiet_pure _

/-- A step that writes no rows itself leaves storage alone, or succeeds and makes its change. -/
theorem effect {step : Step} (hraw : step.isRaw = false) (s : Storage) :
    (step.run s).storage = s ∨
      (∃ a, (step.run s).result = .ok a) ∧
        ∃ c, step.change? = some c ∧ c.Made s (step.run s).storage := by
  cases hc : step.change? with
  | none => exact .inl ((quiet hraw hc).commit s)
  | some c =>
      rcases (storesLike hc).made s with hsame | ⟨hok, hmade⟩
      · exact .inl hsame
      · exact .inr ⟨hok, c, rfl, hmade⟩

end Step

end TransferFees
