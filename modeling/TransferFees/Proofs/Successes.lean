import TransferFees.Proofs.Statuses
import TransferFees.Proofs.Successions

/-!
# What succeeded in a history

An action that asks for a change and does not fail has made it (`Action.made_of_succeeds`); it makes
no other (`Action.effect`). So the changes that were granted in a history (`Action.grantedIn`) are
made one after the other, and nothing else is done to what is stored (`Action.madeAll_grantedIn`).
Everything that is said of runs of changes can then be said of histories: all that failed in between
may be left out.
-/

namespace TransferFees

/-! ## One success -/

namespace Setup

/-- Where the command asks for a fee state and tells of no failure, it has created it. -/
theorem made_of_succeeds {settings : Settings} {argv : List String} {c : Change} {s : Storage}
    (hc : change? settings argv = some c)
    (h : ¬((run settings argv s).exitCode ≠ 0 ∨
      .note .warning .setup FeeError.alreadyInitialized.message ∈ (run settings argv s).log)) :
    ∃ opened, s.Opened opened ∧ c.Made opened (run settings argv s).storage := by
  obtain ⟨owner, tokens, hparse, howner, rfl⟩ := of_change? hc
  have hrun : run settings argv s = runWith settings ⟨.named owner, tokens⟩ s := by
    rw [run, hparse]
  rw [hrun] at h ⊢
  cases htables : s.createTables with
  | error fault => exact absurd (.inl (by simp [runWith, htables])) h
  | ok opened =>
      refine ⟨opened, Storage.opened_of_createTables htables, ?_⟩
      cases hresult : ((establish settings owner tokens).commit opened).result with
      | ok done =>
          rw [storage_runWith htables howner]
          exact (storesLike_establish settings owner tokens).made_of_ok hresult
      | error e =>
          refine absurd ?_ h
          simp only [runWith, htables, howner, if_false, hresult]
          cases e <;> simp

end Setup

namespace Action

/-- **An action that asks for a change and does not fail has made it.** -/
theorem made_of_succeeds {a : Action} {c : Change} {s : Storage} (hc : a.change? = some c)
    (h : ¬a.Fails s) : ∃ opened, s.Opened opened ∧ c.Made opened (a.after s) := by
  cases a with
  | step x =>
      refine ⟨s, .inl rfl, ?_⟩
      cases hresult : (x.run s).result with
      | ok answer => exact (Step.storesLike hc).made_of_ok hresult
      | error e => exact absurd ⟨e, hresult⟩ h
  | request settings r => exact ⟨s, .inl rfl, Http.handle_made hc (Nat.not_le.1 h)⟩
  | setup settings argv => exact Setup.made_of_succeeds hc h

/-! ## All successes of a history -/

instance (a : Action) (s : Storage) : Decidable (a.Fails s) :=
  match a with
  | .step x =>
    match h : (x.run s).result with
    | .ok _ => .isFalse fun ⟨_, he⟩ => nomatch h.symm.trans he
    | .error _ => .isTrue ⟨_, h⟩
  | .request _ _ => inferInstanceAs (Decidable (_ ≤ _))
  | .setup _ _ => inferInstanceAs (Decidable (_ ∨ _))

/-- The change that an action asks for and is granted, if there is one. -/
def granted (a : Action) (s : Storage) : List Change :=
  if a.Fails s then [] else a.change?.toList

/-- The changes that are granted in a history, in order. -/
def grantedIn : List Action → Storage → List Change
  | [], _ => []
  | a :: rest, s => a.granted s ++ grantedIn rest (a.after s)

theorem madeAll_granted {a : Action} (hraw : a.isRaw = false) (t : Tables) :
    Change.MadeAll (.ready t) (a.granted (.ready t)) (a.after (.ready t)) := by
  rw [granted]
  split
  · rename_i hfails
    rcases a.storage_of_fails _ hfails with hsame | ⟨-, hbare, -⟩
    · rw [hsame]
      exact .nil _
    · cases hbare
  · rename_i hsuccess
    cases hc : a.change? with
    | some c =>
        obtain ⟨opened, hstart, hmade⟩ := made_of_succeeds hc hsuccess
        rw [hstart.eq_of_ready] at hmade
        exact .cons hmade (.nil _)
    | none =>
        obtain ⟨opened, hstart, hsame | ⟨-, c, hc', -⟩⟩ := effect hraw (.ready t)
        · rw [hsame, hstart.eq_of_ready]
          exact .nil _
        · rw [hc] at hc'
          cases hc'

/-- **Behind a history are the changes that were granted in it, and no others.** -/
theorem madeAll_grantedIn {history : List Action} (hraw : ∀ a ∈ history, a.isRaw = false)
    (t : Tables) :
    Change.MadeAll (.ready t) (grantedIn history (.ready t)) (afterAll history (.ready t)) := by
  induction history generalizing t with
  | nil => exact .nil _
  | cons a rest ih =>
      obtain ⟨ha, hrest⟩ := List.forall_mem_cons.1 hraw
      obtain ⟨t', ht'⟩ := ready_after ha t
      have hfirst := madeAll_granted ha t
      have hafter : afterAll (a :: rest) (.ready t) = afterAll rest (a.after (.ready t)) := rfl
      rw [hafter, grantedIn, ht'] at *
      exact hfirst.append (ih hrest t')

end Action

end TransferFees
