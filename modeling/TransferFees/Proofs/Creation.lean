import TransferFees.Proofs.Changes
import TransferFees.Session

/-!
# Writing a fee state for the first time

`Ledger.create` writes the fee row, then the tokens one by one, and then reads back what the tables
make together. Tokens may have been there before the row, and they meddle at both later stages: one
of them may be written again, and one of them may be no account id. By then the row is written.

What comes of it is a matter of two sets all the same, the tokens that are there and those that are
to be written (`Event.storedIn_joins`, `Event.storedIn_of_meets`, `Event.storedIn_of_bad`). A step
that creates a fee state stores their union, or nothing at all (`Step.run_createState`).
-/

namespace TransferFees

/-! ## Two sets of tokens -/

namespace Event

variable {t : Tables} {state : FeeState}

/-- Tokens apart from those that are there are stored along with them. -/
theorem storedIn_joins (hstate : state.Valid) (hfees : t.fees = none)
    (hapart : ∀ id ∈ state.tokens, id ∉ t.tokens)
    (hsound : ∀ id ∈ t.tokens, AccountId.isValid id = true) :
    (initialized state).storedIn t =
      .ok (.initialized { state with tokens := t.tokens.insertAll state.tokens.toList }) := by
  refine initialized_storedIn.2 ⟨hfees, hapart, _, FeeState.make_eq_ok_iff.2 ⟨rfl, ?_⟩, rfl⟩
  refine ⟨hstate.owner, hstate.percent, fun id hid => ?_⟩
  rcases TokenSet.mem_insertAll.1 hid with hnew | hold
  · exact hstate.tokens id hnew
  · exact hsound id hold

/-- One token that is already there is enough to refuse all. -/
theorem storedIn_of_meets (hfees : t.fees = none) (h : ∃ id ∈ state.tokens, id ∈ t.tokens) :
    (initialized state).storedIn t = .error .tokenPresent := by
  rw [storedIn, if_neg (by simp [hfees])]
  exact if_pos h

/-- A token that is there and is no account id is found when the state is read back. -/
theorem storedIn_of_bad (hstate : state.Valid) (hfees : t.fees = none)
    (hapart : ∀ id ∈ state.tokens, id ∉ t.tokens)
    (hbad : ¬∀ id ∈ t.tokens, AccountId.isValid id = true) :
    ∃ id ∈ t.tokens, ∃ reason, AccountId.check id = .error reason ∧
      (initialized state).storedIn t = .error (.account reason) := by
  cases hmake : FeeState.make state.owner state.percent
      (t.tokens.insertAll state.tokens.toList) with
  | ok stored =>
      refine absurd (fun id hid => ?_) hbad
      obtain ⟨rfl, hstored⟩ := FeeState.make_eq_ok_iff.1 hmake
      exact hstored.tokens id (TokenSet.mem_insertAll.2 (.inr hid))
  | error e =>
      obtain ⟨id, hid, he⟩ := FeeState.exists_of_make_error hstate.owner hstate.percent hmake
      obtain ⟨reason, hreason, rfl⟩ := Except.mapError_eq_error_iff.1 he
      refine ⟨id, ?_, reason, hreason, ?_⟩
      · -- the tokens that are written were checked when the state was made
        rcases TokenSet.mem_insertAll.1 hid with hnew | hold
        · rw [FeeState.checkAccount_of_isValid (hstate.tokens id hnew)] at he
          cases he
        · exact hold
      · have htokens : ¬∃ id ∈ state.tokens.toList, id ∈ t.tokens := by
          rintro ⟨id, hnew, hold⟩
          exact hapart id hnew hold
        rw [storedIn, if_neg (by simp [hfees]), if_neg htokens, hmake]
        rfl

theorem storedIn_of_isSome (h : t.fees.isSome) :
    (initialized state).storedIn t = .error .alreadyInitialized := if_pos h

end Event

/-! ## One session -/

namespace Step

variable {owner : String} {percent : Int} {tokens : List String} {state : FeeState} {t : Tables}

/-- In a session of its own, creating gives and stores what the tables make of the state. -/
theorem run_createState_of_ok {stored : FeeState}
    (hnew : FeeState.new owner tokens (some percent) = .ok state)
    (h : (Event.initialized state).storedIn t = .ok (.initialized stored)) :
    (createState owner percent tokens).run (.ready t) =
      ⟨.ok (.state stored), .ready stored.tables, []⟩ := by
  refine Work.commit_of_ok (d := ⟨.ready stored.tables, []⟩) ?_
  rw [work, hnew]
  exact (Work.bind_of_ok rfl).trans (Work.bind_of_ok (Ledger.create_ok h))

/-- The row and some of the tokens may be written by then, but they are not kept. -/
theorem run_createState_of_error {e : FeeError}
    (hnew : FeeState.new owner tokens (some percent) = .ok state)
    (h : (Event.initialized state).storedIn t = .error e) :
    (createState owner percent tokens).run (.ready t) = ⟨.error e, .ready t, []⟩ := by
  obtain ⟨s, hs⟩ := Ledger.create_error (l := []) h
  refine Work.commit_of_error (d := ⟨s, []⟩) ?_
  rw [work, hnew]
  exact (Work.bind_of_ok rfl).trans (Work.bind_of_error hs)

/-- **Apart from the tokens that are there**, the new ones join them. -/
theorem run_createState_joins (hnew : FeeState.new owner tokens (some percent) = .ok state)
    (hfees : t.fees = none) (hapart : ∀ id ∈ tokens, id ∉ t.tokens)
    (hsound : ∀ id ∈ t.tokens, AccountId.isValid id = true) :
    ∃ union : TokenSet, (∀ id, id ∈ union ↔ id ∈ t.tokens ∨ id ∈ tokens) ∧
      (createState owner percent tokens).run (.ready t) =
        ⟨.ok (.state ⟨owner, percent, union⟩), .ready ⟨some ⟨owner, percent⟩, union⟩, []⟩ := by
  obtain ⟨rfl, hstate⟩ := FeeState.make_eq_ok_iff.1 hnew
  refine ⟨_, fun id => ?_, run_createState_of_ok hnew (Event.storedIn_joins hstate hfees ?_ hsound)⟩
  · rw [TokenSet.mem_insertAll, or_comm]
    exact or_congr_right TokenSet.mem_ofList
  · intro id hid
    exact hapart id (TokenSet.mem_ofList.1 hid)

/-- Where a token is there already nothing is stored, not even the fee row, which was written first.
-/
theorem run_createState_of_meets (hnew : FeeState.new owner tokens (some percent) = .ok state)
    (hfees : t.fees = none) (h : ¬∀ id ∈ tokens, id ∉ t.tokens) :
    (createState owner percent tokens).run (.ready t) = ⟨.error .tokenPresent, .ready t, []⟩ := by
  obtain ⟨rfl, -⟩ := FeeState.make_eq_ok_iff.1 hnew
  refine run_createState_of_error hnew (Event.storedIn_of_meets hfees ?_)
  simpa [TokenSet.mem_ofList] using h

/-- Where a token is there that is no account id, everything has been written and is taken back. -/
theorem run_createState_of_bad (hnew : FeeState.new owner tokens (some percent) = .ok state)
    (hfees : t.fees = none) (hapart : ∀ id ∈ tokens, id ∉ t.tokens)
    (hbad : ¬∀ id ∈ t.tokens, AccountId.isValid id = true) :
    ∃ id ∈ t.tokens, ∃ reason, AccountId.check id = .error reason ∧
      (createState owner percent tokens).run (.ready t) =
        ⟨.error (.account reason), .ready t, []⟩ := by
  obtain ⟨rfl, hstate⟩ := FeeState.make_eq_ok_iff.1 hnew
  obtain ⟨id, hid, reason, hreason, hstored⟩ := Event.storedIn_of_bad hstate hfees
    (fun id hid => hapart id (TokenSet.mem_ofList.1 hid)) hbad
  exact ⟨id, hid, reason, hreason, run_createState_of_error hnew hstored⟩

/-- **Union or nothing.** Where there is no fee row, a step that creates a fee state succeeds if and
only if no token of it is there already and all that are there are account ids. Then the union is
stored and given. Otherwise the error tells which of the two is amiss, the first one first, and
nothing is stored. Where there is a fee row, nothing is ever stored. The order of the tokens and how
often one is named make no difference. -/
theorem run_createState (hnew : FeeState.new owner tokens (some percent) = .ok state)
    (t : Tables) :
    let outcome := (createState owner percent tokens).run (.ready t)
    let Apart := ∀ id ∈ tokens, id ∉ t.tokens
    let Sound := ∀ id ∈ t.tokens, AccountId.isValid id = true
    (t.fees = none →
      ((∃ answer, outcome.result = .ok answer) ↔ Apart ∧ Sound) ∧
      (Apart ∧ Sound → ∃ union : TokenSet, (∀ id, id ∈ union ↔ id ∈ t.tokens ∨ id ∈ tokens) ∧
        outcome.result = .ok (.state ⟨owner, percent, union⟩) ∧
        outcome.storage = .ready ⟨some ⟨owner, percent⟩, union⟩) ∧
      (¬Apart → outcome.result = .error .tokenPresent ∧ outcome.storage = .ready t) ∧
      (Apart → ¬Sound → (∃ id ∈ t.tokens, ∃ reason, AccountId.check id = .error reason ∧
        outcome.result = .error (.account reason)) ∧ outcome.storage = .ready t)) ∧
    (t.fees.isSome → outcome.result = .error .alreadyInitialized ∧ outcome.storage = .ready t) ∧
    ∀ others, (∀ id, id ∈ others ↔ id ∈ tokens) →
      (createState owner percent others).run (.ready t) = outcome := by
  intro outcome Apart Sound
  refine ⟨fun hfees => ⟨⟨?_, ?_⟩, ?_, ?_, ?_⟩, ?_, ?_⟩
  · rintro ⟨answer, hanswer⟩
    by_cases hapart : Apart
    · by_cases hsound : Sound
      · exact ⟨hapart, hsound⟩
      · obtain ⟨id, -, reason, -, hrun⟩ := run_createState_of_bad hnew hfees hapart hsound
        simp [outcome, hrun] at hanswer
    · simp [outcome, run_createState_of_meets hnew hfees hapart] at hanswer
  · rintro ⟨hapart, hsound⟩
    obtain ⟨union, -, hrun⟩ := run_createState_joins hnew hfees hapart hsound
    simp [outcome, hrun]
  · rintro ⟨hapart, hsound⟩
    obtain ⟨union, hmem, hrun⟩ := run_createState_joins hnew hfees hapart hsound
    exact ⟨union, hmem, by simp [outcome, hrun]⟩
  · intro hnot
    simp [outcome, run_createState_of_meets hnew hfees hnot]
  · intro hapart hnot
    obtain ⟨id, hid, reason, hreason, hrun⟩ := run_createState_of_bad hnew hfees hapart hnot
    exact ⟨⟨id, hid, reason, hreason, by simp [outcome, hrun]⟩, by simp [outcome, hrun]⟩
  · intro hfees
    simp [outcome, run_createState_of_error hnew (Event.storedIn_of_isSome hfees)]
  · intro others hothers
    have hsame : FeeState.new owner others (some percent) =
        FeeState.new owner tokens (some percent) := by
      rw [FeeState.new, FeeState.new, TokenSet.ofList_congr hothers]
    simp only [outcome, run, work, hsame]

/-- One token was there before, and another is named twice. -/
theorem run_createState_beside_wrap :
    let t : Tables := ⟨none, .ofList ["wrap.near"]⟩
    let outcome := (createState "owner.near" 250 ["usdt.near", "usdt.near"]).run (.ready t)
    FeeState.new "owner.near" ["usdt.near", "usdt.near"] (some 250) =
        .ok ⟨"owner.near", 250, .ofList ["usdt.near"]⟩ ∧
      ∃ union : TokenSet, (∀ id, id ∈ union ↔ id = "wrap.near" ∨ id = "usdt.near") ∧
        outcome.result = .ok (.state ⟨"owner.near", 250, union⟩) ∧
        outcome.storage = .ready ⟨some ⟨"owner.near", 250⟩, union⟩ := by
  intro t outcome
  have hnew : FeeState.new "owner.near" ["usdt.near", "usdt.near"] (some 250) =
      .ok ⟨"owner.near", 250, .ofList ["usdt.near"]⟩ := by rfl
  obtain ⟨-, hunion, -⟩ := (run_createState hnew t).1 rfl
  obtain ⟨union, hmem, houtcome⟩ := hunion (by decide)
  refine ⟨hnew, union, fun id => ?_, houtcome⟩
  rw [hmem]
  simp [t, TokenSet.mem_ofList]

end Step

end TransferFees
