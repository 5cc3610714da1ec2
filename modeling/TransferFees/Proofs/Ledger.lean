import TransferFees.Proofs.FeeState
import TransferFees.Proofs.TokenSets
import TransferFees.Proofs.Work
import TransferFees.Service

/-!
# What the tables make of a unit of work

Where the tables are there, what is read from them and what they let in are functions of what they
hold: `Tables.load` is the fee state that their rows make, and `Event.storedIn` tells what becomes
of an event that is to be stored. `Ledger.load_ready`, `Plan.carryOut_ok` and `Plan.carryOut_error`
say that the units of work compute these functions. A unit of work that fails may have written half
of what it meant to; that half is never committed, so it is left open here.
-/

namespace TransferFees

/-! ## Rows and states -/

/-- The rows that a fee state is stored as. -/
def FeeState.tables (s : FeeState) : Tables := ⟨some ⟨s.owner, s.percent⟩, s.tokens⟩

/-- The fee state that the rows make, if there is a fee row. -/
def Tables.load (t : Tables) : Except FeeError (Option FeeState) :=
  match t.fees with
  | none => .ok none
  | some row => (FeeState.make row.owner row.percent t.tokens).map some

/-- A valid state is loaded from its rows as it was. -/
theorem FeeState.Valid.load {s : FeeState} (h : s.Valid) : s.tables.load = .ok (some s) := by
  have hmake : FeeState.make s.owner s.percent s.tokens = .ok s := h.make
  simp only [FeeState.tables, Tables.load, hmake, Except.map]

/-- **Loading undoes storing, and nothing else is loaded**: the rows are those of a valid state. -/
theorem Tables.load_eq_some_iff {t : Tables} {s : FeeState} :
    t.load = .ok (some s) ↔ t = s.tables ∧ s.Valid := by
  constructor
  · intro h
    obtain ⟨fees, tokens⟩ := t
    cases fees with
    | none => cases h
    | some row =>
        obtain ⟨made, hmake, hs⟩ := Except.map_eq_ok_iff.1 h
        cases hs
        obtain ⟨rfl, hv⟩ := FeeState.make_eq_ok_iff.1 hmake
        exact ⟨rfl, hv⟩
  · rintro ⟨rfl, hv⟩
    exact hv.load

/-! ## Reading -/

namespace Ledger

variable {t : Tables} {l : List LogEntry}

theorem tokens_ready : tokens ⟨.ready t, l⟩ = (.ok t.tokens, ⟨.ready t, l⟩) := rfl

theorem stateOf_ready (row : FeeRow) :
    stateOf row ⟨.ready t, l⟩ =
      (FeeState.make row.owner row.percent t.tokens, ⟨.ready t, l⟩) := by
  rw [stateOf, Work.bind_of_ok tokens_ready, Work.ofExcept_apply]

theorem load_ready : load ⟨.ready t, l⟩ = (t.load, ⟨.ready t, l⟩) := by
  rw [load, Work.bind_of_ok (Work.readTables_ready .fees t l), Tables.load]
  cases t.fees with
  | none => rfl
  | some row =>
      have hstate := stateOf_ready (t := t) (l := l) row
      dsimp only
      cases h : FeeState.make row.owner row.percent t.tokens with
      | ok s =>
          rw [h] at hstate
          exact Work.bind_of_ok hstate
      | error e =>
          rw [h] at hstate
          exact Work.bind_of_error hstate

/-! ## Writing tokens -/

/-- A token that is not there is added, be it an account id or not: the table does not look. -/
theorem addToken_ok {id : String} (h : id ∉ t.tokens) :
    addToken (some id) ⟨.ready t, l⟩ =
      (.ok (), ⟨.ready { t with tokens := t.tokens.insert id }, l⟩) := by
  rw [addToken, Work.bind_of_ok (Work.readTables_ready .tokens t l)]
  dsimp only
  rw [if_neg h, Work.writeTables_apply]

theorem addToken_error {id : String} (h : id ∈ t.tokens) :
    addToken (some id) ⟨.ready t, l⟩ = (.error .tokenPresent, ⟨.ready t, l⟩) := by
  rw [addToken, Work.bind_of_ok (Work.readTables_ready .tokens t l)]
  dsimp only
  rw [if_pos h, Work.fail_apply]

theorem removeToken_ok {id : String} (h : id ∈ t.tokens) :
    removeToken id ⟨.ready t, l⟩ =
      (.ok (), ⟨.ready { t with tokens := t.tokens.erase id }, l⟩) := by
  rw [removeToken, Work.bind_of_ok (Work.readTables_ready .tokens t l), if_pos h,
    Work.writeTables_apply]

theorem removeToken_error {id : String} (h : id ∉ t.tokens) :
    removeToken id ⟨.ready t, l⟩ = (.error (.tokenAbsent id), ⟨.ready t, l⟩) := by
  rw [removeToken, Work.bind_of_ok (Work.readTables_ready .tokens t l), if_neg h,
    Work.fail_apply]

/-- Different tokens that are not there yet are all added. -/
theorem addTokens_ok {ids : List String} (hnodup : ids.Nodup) (h : ∀ id ∈ ids, id ∉ t.tokens) :
    addTokens ids ⟨.ready t, l⟩ =
      (.ok (), ⟨.ready { t with tokens := t.tokens.insertAll ids }, l⟩) := by
  induction ids generalizing t with
  | nil => rfl
  | cons id rest ih =>
      obtain ⟨hid, hrest⟩ := List.nodup_cons.1 hnodup
      rw [addTokens, Work.bind_of_ok (addToken_ok (h id (by simp)))]
      refine ih hrest fun y hy hmem => ?_
      rcases TokenSet.mem_insert.1 hmem with rfl | hmem
      · exact hid hy
      · exact h y (by simp [hy]) hmem

/-- A token that is there already stops them; those before it are in the draft by then. -/
theorem addTokens_error {ids : List String} (h : ∃ id ∈ ids, id ∈ t.tokens) :
    ∃ s, addTokens ids ⟨.ready t, l⟩ = (.error .tokenPresent, ⟨s, l⟩) := by
  induction ids generalizing t with
  | nil =>
      obtain ⟨id, hid, -⟩ := h
      cases hid
  | cons id rest ih =>
      by_cases hid : id ∈ t.tokens
      · exact ⟨.ready t, Work.bind_of_error (addToken_error hid)⟩
      · have hrest : ∃ y ∈ rest, y ∈ t.tokens.insert id := by
          obtain ⟨y, hy, hmem⟩ := h
          rcases List.mem_cons.1 hy with rfl | hy
          · exact absurd hmem hid
          · exact ⟨y, hy, TokenSet.mem_insert.2 (.inr hmem)⟩
        rw [addTokens, Work.bind_of_ok (addToken_ok hid)]
        exact ih (t := { t with tokens := t.tokens.insert id }) hrest

end Ledger

/-! ## Storing an event -/

/-- The event as it is recorded once it is stored, or why the tables refuse it. A fee state that is
created takes in the tokens that are there, and is checked again with them. -/
def Event.storedIn (t : Tables) : Event → Except FeeError Event
  | .initialized state =>
    if t.fees.isSome then .error .alreadyInitialized
    else if ∃ id ∈ state.tokens.toList, id ∈ t.tokens then .error .tokenPresent
    else
      (FeeState.make state.owner state.percent (t.tokens.insertAll state.tokens.toList)).map
        .initialized
  | .percentSet value caller =>
    if fitsColumn value then .ok (.percentSet value caller)
    else .error (.storage .numberTooLarge)
  | .tokenAdded id => if id ∈ t.tokens then .error .tokenPresent else .ok (.tokenAdded id)
  | .tokenRemoved id =>
    if id ∈ t.tokens then .ok (.tokenRemoved id) else .error (.tokenAbsent id)

/-- A fee state is stored where there is no row and none of its tokens, and only if it can be read
back together with the tokens that are there. -/
theorem Event.initialized_storedIn {t : Tables} {state : FeeState} {e : Event} :
    (Event.initialized state).storedIn t = .ok e ↔
      t.fees = none ∧ (∀ id ∈ state.tokens.toList, id ∉ t.tokens) ∧
        ∃ stored, FeeState.make state.owner state.percent
          (t.tokens.insertAll state.tokens.toList) = .ok stored ∧ e = .initialized stored := by
  simp only [Event.storedIn]
  cases hfees : t.fees with
  | some row => simp
  | none =>
      by_cases htokens : ∃ id ∈ state.tokens.toList, id ∈ t.tokens
      · rw [if_neg (by simp), if_pos htokens]
        refine iff_of_false nofun fun h => ?_
        obtain ⟨id, hid, hmem⟩ := htokens
        exact h.2.1 id hid hmem
      · have hfresh : ∀ id ∈ state.tokens.toList, id ∉ t.tokens := by simpa using htokens
        rw [if_neg (by simp), if_neg htokens]
        rw [and_iff_right rfl, and_iff_right hfresh]
        cases FeeState.make state.owner state.percent (t.tokens.insertAll state.tokens.toList) <;>
          simp [Except.map, eq_comm]

/-- The fee state that is given once the event is stored: `next`, as it was planned, unless the
state was read back. -/
def Event.stateAfter (next : FeeState) : Event → FeeState
  | .initialized stored => stored
  | _ => next

namespace Ledger

variable {t : Tables} {l : List LogEntry} {state : FeeState}

/-- What `create` does once it has found no fee row. -/
theorem create_eq (hfees : t.fees = none) :
    create state ⟨.ready t, l⟩ =
      (do
        addTokens state.tokens.toList
        stateOf ⟨state.owner, state.percent⟩ : Work FeeState)
        ⟨.ready { t with fees := some ⟨state.owner, state.percent⟩ }, l⟩ := by
  have hnone : ¬t.fees.isSome = true := by simp [hfees]
  rw [create, Work.bind_of_ok (Work.readTables_ready .fees t l), if_neg hnone]
  exact Work.bind_of_ok (Work.writeTables_apply _ _)

/-- What is given is what was read back. -/
theorem create_ok {stored : FeeState}
    (h : (Event.initialized state).storedIn t = .ok (.initialized stored)) :
    create state ⟨.ready t, l⟩ = (.ok stored, ⟨.ready stored.tables, l⟩) := by
  obtain ⟨hfees, htokens, made, hm, he⟩ := Event.initialized_storedIn.1 h
  cases he
  have hadd := addTokens_ok (l := l) (t := { t with fees := some ⟨state.owner, state.percent⟩ })
    state.tokens.nodup_toList htokens
  rw [create_eq hfees, Work.bind_of_ok hadd, stateOf_ready, hm]
  obtain ⟨rfl, -⟩ := FeeState.make_eq_ok_iff.1 hm
  rfl

/-- A failure may come after some rows were written. -/
theorem create_error {e : FeeError} (h : (Event.initialized state).storedIn t = .error e) :
    ∃ s, create state ⟨.ready t, l⟩ = (.error e, ⟨s, l⟩) := by
  simp only [Event.storedIn] at h
  split at h
  · rename_i hfees
    cases h
    refine ⟨.ready t, ?_⟩
    rw [create, Work.bind_of_ok (Work.readTables_ready .fees t l), if_pos hfees, Work.fail_apply]
  · rename_i hfees
    rw [create_eq (by simpa using hfees)]
    split at h
    · rename_i htokens
      cases h
      obtain ⟨s, hs⟩ := addTokens_error (l := l)
        (t := { t with fees := some ⟨state.owner, state.percent⟩ }) htokens
      exact ⟨s, Work.bind_of_error hs⟩
    · rename_i htokens
      cases hm : FeeState.make state.owner state.percent
          (t.tokens.insertAll state.tokens.toList) with
      | ok made =>
          rw [hm] at h
          cases h
      | error e' =>
          rw [hm] at h
          cases h
          have hadd := addTokens_ok (l := l)
            (t := { t with fees := some ⟨state.owner, state.percent⟩ })
            state.tokens.nodup_toList (by simpa using htokens)
          rw [Work.bind_of_ok hadd, stateOf_ready, hm]
          exact ⟨_, rfl⟩

end Ledger

namespace Plan

variable {plan : Plan} {t : Tables} {l : List LogEntry}

/-- **What a plan stores.** The tables are those that replaying the recorded event gives. -/
theorem carryOut_ok {e : Event} (h : plan.event.storedIn t = .ok e) :
    plan.carryOut ⟨.ready t, l⟩ =
      (.ok (e.stateAfter plan.next), ⟨.ready (e.replay t), l ++ [.event e]⟩) := by
  obtain ⟨event, next⟩ := plan
  cases event with
  | initialized state =>
      obtain ⟨-, -, stored, -, rfl⟩ := Event.initialized_storedIn.1 h
      exact Work.bind_of_ok (Ledger.create_ok h)
  | percentSet value caller =>
      simp only [Event.storedIn] at h
      split at h
      · rename_i hfits
        cases h
        have hset : Ledger.setPercent value ⟨.ready t, l⟩ =
            (.ok (), ⟨.ready ((Event.percentSet value caller).replay t), l⟩) := by
          rw [Ledger.setPercent, Work.bind_of_ok (Work.readTables_ready .fees t l), if_pos hfits]
          rfl
        exact Work.bind_of_ok hset
      · cases h
  | tokenAdded id =>
      simp only [Event.storedIn] at h
      split at h
      · cases h
      · rename_i hid
        cases h
        exact Work.bind_of_ok (Ledger.addToken_ok hid)
  | tokenRemoved id =>
      simp only [Event.storedIn] at h
      split at h
      · rename_i hid
        cases h
        exact Work.bind_of_ok (Ledger.removeToken_ok hid)
      · cases h

/-- What the tables do not let in fails, and what was written until then is left open. -/
theorem carryOut_error {err : FeeError} (h : plan.event.storedIn t = .error err) :
    ∃ s, plan.carryOut ⟨.ready t, l⟩ = (.error err, ⟨s, l⟩) := by
  obtain ⟨event, next⟩ := plan
  cases event with
  | initialized state =>
      obtain ⟨s, hs⟩ := Ledger.create_error (l := l) h
      exact ⟨s, Work.bind_of_error hs⟩
  | percentSet value caller =>
      simp only [Event.storedIn] at h
      split at h
      · cases h
      · rename_i hfits
        cases h
        have hset : Ledger.setPercent value ⟨.ready t, l⟩ =
            (.error (.storage .numberTooLarge), ⟨.ready t, l⟩) := by
          rw [Ledger.setPercent, Work.bind_of_ok (Work.readTables_ready .fees t l), if_neg hfits,
            Work.fail_apply]
        exact ⟨_, Work.bind_of_error hset⟩
  | tokenAdded id =>
      simp only [Event.storedIn] at h
      split at h
      · rename_i hid
        cases h
        exact ⟨_, Work.bind_of_error (Ledger.addToken_error hid)⟩
      · cases h
  | tokenRemoved id =>
      simp only [Event.storedIn] at h
      split at h
      · cases h
      · rename_i hid
        cases h
        exact ⟨_, Work.bind_of_error (Ledger.removeToken_error hid)⟩

end Plan

end TransferFees
