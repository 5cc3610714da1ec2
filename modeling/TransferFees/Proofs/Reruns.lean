import TransferFees.Proofs.Establishing
import TransferFees.Proofs.Successions

/-!
# Running the setup command again

A second run meets other storage than the first one, and takes another way through the command.
Where the first created a fee state, the second finds it and warns; where the first created tables
alone, the second finds them. Both runs end with the same exit code all the same, and the second
leaves what the first left (`Setup.run_repeats`).

There are three cases, by what the first run has stored (`Setup.run_effect`): nothing, missing
tables, or a fee state.
-/

namespace TransferFees

/-- A fee state that is there is not established again. -/
theorem Change.establish_outcome_of_valid {state : FeeState} (h : state.Valid) {caller : String}
    {tokens : List String} {standard : Option String} :
    (Change.establish caller tokens standard).outcome state.tables = .error .alreadyInitialized := by
  rw [outcome_of_valid h]
  rfl

namespace Setup

variable {settings : Settings} {argv : List String} {s : Storage}

/-- A second run ends like the first one and leaves what that one left. -/
def Repeats (settings : Settings) (argv : List String) (s : Storage) : Prop :=
  let first := run settings argv s
  let second := run settings argv first.storage
  second.exitCode = first.exitCode ∧ second.storage = first.storage

theorem repeats_of_unchanged (h : (run settings argv s).storage = s) : Repeats settings argv s := by
  rw [Repeats, h]
  exact ⟨rfl, h⟩

/-- Missing tables are as good as fresh ones. -/
theorem runWith_bare (settings : Settings) (arguments : Arguments) :
    runWith settings arguments .bare = runWith settings arguments (.ready .fresh) := rfl

theorem repeats_of_tables_created (h : (run settings argv .bare).storage = .ready .fresh) :
    Repeats settings argv .bare := by
  have hsame : run settings argv (.ready .fresh) = run settings argv .bare := by
    rw [run] at h
    rw [run, run]
    cases hparse : Arguments.parse argv with
    | ok arguments => exact (runWith_bare settings arguments).symm
    | error refused =>
        -- a faulty command line creates no tables
        rw [hparse] at h
        cases h
  rw [Repeats, h, hsame]
  exact ⟨rfl, h⟩

/-- Where the first run has created the fee state, the second warns and leaves it as it is. -/
theorem repeats_of_made (hcode : (run settings argv s).exitCode = 0) {c : Change}
    {opened : Storage} (hc : change? settings argv = some c)
    (hmade : c.Made opened (run settings argv s).storage) : Repeats settings argv s := by
  obtain ⟨owner, tokens, hparse, howner, rfl⟩ := of_change? hc
  obtain ⟨state, hstate, hstored⟩ := hmade.exists_holds
  have hsecond : run settings argv (.ready state.tables) =
      ⟨0, .ready state.tables, opening ++ [warned]⟩ := by
    rw [run, hparse]
    exact runWith_of_outcome_error rfl howner (Change.establish_outcome_of_valid hstate)
  rw [Repeats, hcode, hstored, hsecond]
  exact ⟨rfl, rfl⟩

/-- **The setup command may be run again.** The second run ends with the same exit code and leaves
what the first one left. Tables that are there stay as they are if they hold a fee row, or if the
command line names no owner. -/
theorem run_repeats (settings : Settings) (argv : List String) (s : Storage) :
    let first := run settings argv s
    let second := run settings argv first.storage
    (second.exitCode = first.exitCode ∧ second.storage = first.storage) ∧
      ∀ t, s = .ready t →
        (t.fees.isSome ∨
          ∀ owner tokens, Arguments.parse argv = .ok ⟨.named owner, tokens⟩ → owner = "") →
        first.storage = s := by
  intro first second
  obtain ⟨opened, hopened, heffect⟩ := run_effect settings argv s
  constructor
  · rcases heffect with hsame | ⟨⟨hcode, -⟩, c, hc, hmade⟩
    · rcases hopened with rfl | ⟨rfl, rfl⟩
      · exact repeats_of_unchanged hsame
      · exact repeats_of_tables_created hsame
    · exact repeats_of_made hcode hc hmade
  · rintro t rfl hkept
    obtain rfl := hopened.eq_of_ready
    rcases heffect with hsame | ⟨-, c, hc, hmade⟩
    · exact hsame
    · obtain ⟨owner, tokens, hparse, howner, rfl⟩ := of_change? hc
      rcases hkept with hfees | hnobody
      · rw [hmade.fees_of_establish] at hfees
        cases hfees
      · exact absurd (hnobody owner tokens hparse) howner

/-- On bare storage the first run creates the fee state and the second one warns. A bad fee row makes
both fail, and is kept. Without an owner the tokens are kept that came before any fee row. -/
theorem run_repeats_on_bare_bad_and_unowned :
    let owned := run {} ["--owner", "owner.near", "usdt.near"]
    let unowned := run {} ["--owner="]
    let state : FeeState := ⟨"owner.near", 500, .ofList ["usdt.near"]⟩
    let bad : Tables := ⟨some ⟨"no id", 500⟩, .empty⟩
    let early : Tables := ⟨none, .ofList ["wrap.near"]⟩
    ((owned .bare).storage = .ready state.tables ∧ (owned (.ready state.tables)).exitCode = 0 ∧
        (owned (.ready state.tables)).storage = .ready state.tables) ∧
      (bad.fees.isSome ∧ (owned (.ready bad)).exitCode = 1 ∧
        (owned (.ready bad)).storage = .ready bad) ∧
      (∀ owner tokens, Arguments.parse ["--owner="] = .ok ⟨.named owner, tokens⟩ → owner = "") ∧
      (unowned (.ready early)).storage = .ready early := by
  intro owned unowned state bad early
  have hfirst : (owned .bare).storage = .ready state.tables := rfl
  have hcode : (owned .bare).exitCode = 0 := rfl
  have hunowned : ∀ owner tokens,
      Arguments.parse ["--owner="] = .ok ⟨.named owner, tokens⟩ → owner = "" := by
    intro owner tokens h
    cases h
    rfl
  obtain ⟨hagain, -⟩ := run_repeats {} ["--owner", "owner.near", "usdt.near"] .bare
  have hsecond : (owned (owned .bare).storage).exitCode = (owned .bare).exitCode ∧
      (owned (owned .bare).storage).storage = (owned .bare).storage := hagain
  rw [hfirst, hcode] at hsecond
  refine ⟨⟨hfirst, hsecond⟩, ⟨rfl, rfl, ?_⟩, hunowned, ?_⟩
  · exact (run_repeats {} _ (.ready bad)).2 bad rfl (.inl rfl)
  · exact (run_repeats {} _ (.ready early)).2 early rfl (.inr hunowned)

end Setup

end TransferFees
