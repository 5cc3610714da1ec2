import TransferFees.FeeState
import TransferFees.Proofs.Percent
import TransferFees.Proofs.Results

/-!
# Valid fee states

`make` is the only door to a fee state, and what it lets in is exactly what is valid
(`make_eq_ok_iff`). Every operation that succeeds leads from a valid state to a valid state, so a
state that was made once never has to be checked again.
-/

namespace TransferFees.FeeState

/-- The owner and the tokens are account ids, and the percent lies in the range. -/
structure Valid (s : FeeState) : Prop where
  owner : AccountId.isValid s.owner = true
  percent : Percent.least ≤ s.percent ∧ s.percent ≤ Percent.greatest
  tokens : ∀ id ∈ s.tokens, AccountId.isValid id = true

/-! ## Making a state -/

theorem checkAccount_eq_ok_iff {id other : String} :
    checkAccount id = .ok other ↔ other = id ∧ AccountId.isValid id = true := by
  rw [← AccountId.check_eq_ok_iff, checkAccount, Except.mapError_eq_ok_iff]

theorem checkAccount_of_isValid {id : String} (h : AccountId.isValid id = true) :
    checkAccount id = .ok id :=
  checkAccount_eq_ok_iff.2 ⟨rfl, h⟩

/-- The check of the tokens, as it stands in `make`. -/
def checkTokens (ids : List String) : Except FeeError PUnit :=
  forIn ids PUnit.unit fun id _ => do
    let _ ← checkAccount id
    pure (.yield PUnit.unit)

theorem checkTokens_cons (id : String) (rest : List String) :
    checkTokens (id :: rest) = (do let _ ← checkAccount id; checkTokens rest) := by
  rw [checkTokens, List.forIn_cons]
  cases checkAccount id <;> rfl

/-- A list passes where all are account ids, in whatever order they are taken. -/
theorem checkTokens_eq_ok_iff {ids : List String} {u : PUnit} :
    checkTokens ids = .ok u ↔ ∀ id ∈ ids, AccountId.isValid id = true := by
  induction ids with
  | nil => simp [checkTokens, pure, Except.pure]
  | cons id rest ih =>
      rw [checkTokens_cons, List.forall_mem_cons, ← ih]
      cases h : checkAccount id with
      | ok other =>
          have hvalid := (checkAccount_eq_ok_iff.1 h).2
          exact ⟨fun hrest => ⟨hvalid, hrest⟩, fun hrest => hrest.2⟩
      | error e =>
          refine iff_of_false nofun fun hrest => ?_
          rw [checkAccount_of_isValid hrest.1] at h
          cases h

/-- The check of the tokens fails with the error of one of them. -/
theorem exists_of_checkTokens_error {ids : List String} {e : FeeError}
    (h : checkTokens ids = .error e) : ∃ id ∈ ids, checkAccount id = .error e := by
  induction ids with
  | nil => cases h
  | cons id rest ih =>
      rw [checkTokens_cons] at h
      rcases Except.bind_eq_error_iff.1 h with hid | ⟨_, -, hrest⟩
      · exact ⟨id, by simp, hid⟩
      · obtain ⟨other, hother, he⟩ := ih hrest
        exact ⟨other, by simp [hother], he⟩

/-- `make` with the loop over the tokens by its name. -/
theorem make_eq (owner : String) (percent : Int) (tokens : TokenSet) :
    make owner percent tokens = (do
      let _ ← checkAccount owner
      if percent < Percent.least ∨ Percent.greatest < percent then throw .percentOutOfRange
      let _ ← checkTokens tokens.toList
      return ⟨owner, percent, tokens⟩) := rfl

/-- **What is made is what is valid.** -/
theorem make_eq_ok_iff {owner : String} {percent : Int} {tokens : TokenSet} {s : FeeState} :
    make owner percent tokens = .ok s ↔ s = ⟨owner, percent, tokens⟩ ∧ s.Valid := by
  rw [make_eq]
  constructor
  · intro h
    obtain ⟨other, ho, h⟩ := Except.bind_eq_ok_iff.1 h
    by_cases hp : percent < Percent.least ∨ Percent.greatest < percent
    · rw [if_pos hp] at h
      cases h
    · rw [if_neg hp] at h
      obtain ⟨u, ht, h⟩ := Except.bind_eq_ok_iff.1 h
      cases h
      exact ⟨rfl, (checkAccount_eq_ok_iff.1 ho).2, by simpa using hp,
        checkTokens_eq_ok_iff.1 ht⟩
  · rintro ⟨rfl, hv⟩
    have hp : ¬(percent < Percent.least ∨ Percent.greatest < percent) := by
      have := hv.percent
      simpa using this
    have ht : checkTokens tokens.toList = .ok PUnit.unit := checkTokens_eq_ok_iff.2 hv.tokens
    rw [checkAccount_of_isValid hv.owner, if_neg hp, ht]
    rfl

/-- Where the owner and the percent are in order, it is a token that is refused. -/
theorem exists_of_make_error {owner : String} {percent : Int} {tokens : TokenSet} {e : FeeError}
    (howner : AccountId.isValid owner = true)
    (hpercent : Percent.least ≤ percent ∧ percent ≤ Percent.greatest)
    (h : make owner percent tokens = .error e) : ∃ id ∈ tokens, checkAccount id = .error e := by
  have hp : ¬(percent < Percent.least ∨ Percent.greatest < percent) := by simpa using hpercent
  rw [make_eq] at h
  rcases Except.bind_eq_error_iff.1 h with hcheck | ⟨_, -, h⟩
  · rw [checkAccount_of_isValid howner] at hcheck
    cases hcheck
  · rw [if_neg hp] at h
    rcases Except.bind_eq_error_iff.1 h with htokens | ⟨_, -, h⟩
    · exact exists_of_checkTokens_error htokens
    · cases h

/-- A valid state is made again from its parts. -/
theorem Valid.make {s : FeeState} (h : s.Valid) : make s.owner s.percent s.tokens = .ok s :=
  make_eq_ok_iff.2 ⟨rfl, h⟩

/-! ## Operations -/

/-- **Setting the percent** succeeds for the owner with a text that can be read, and changes nothing
else. -/
theorem setPercent_eq_ok_iff {s next : FeeState} {caller text : String} :
    s.setPercent caller text = .ok next ↔
      caller = s.owner ∧ ∃ p, Percent.parse text = .ok p ∧ next = { s with percent := p } := by
  rw [setPercent]
  by_cases hc : caller = s.owner
  · rw [if_neg (by simpa using hc)]
    cases Percent.parse text <;> simp [hc, eq_comm]
  · rw [if_pos hc]
    simp [hc]

theorem setPercent_of_ne_owner {s : FeeState} {caller : String} (h : caller ≠ s.owner)
    (text : String) : s.setPercent caller text = .error .unauthorized := if_pos h

theorem setPercent_of_parse_error {s : FeeState} {caller text : String}
    {reason : Percent.ParseError} (hcaller : caller = s.owner)
    (h : Percent.parse text = .error reason) :
    s.setPercent caller text = .error (.newPercent reason) := by
  rw [setPercent, if_neg (not_not_intro hcaller), h]

/-- **Adding a token** succeeds for an account id that is not there yet, and changes nothing else.
-/
theorem addToken_eq_ok_iff {s next : FeeState} {id : String} :
    s.addToken id = .ok next ↔
      AccountId.isValid id = true ∧ id ∉ s.tokens ∧
        next = { s with tokens := s.tokens.insert id } := by
  rw [addToken, Except.bind_eq_ok_iff]
  constructor
  · rintro ⟨other, hid, h⟩
    by_cases hm : id ∈ s.tokens
    · rw [if_pos hm] at h
      cases h
    · rw [if_neg hm] at h
      cases h
      exact ⟨(checkAccount_eq_ok_iff.1 hid).2, hm, rfl⟩
  · rintro ⟨hid, hm, rfl⟩
    refine ⟨id, checkAccount_of_isValid hid, ?_⟩
    rw [if_neg hm]
    rfl

theorem addToken_of_mem {s : FeeState} {id : String} (hid : AccountId.isValid id = true)
    (h : id ∈ s.tokens) : s.addToken id = .error .tokenPresent := by
  rw [addToken, checkAccount_of_isValid hid]
  exact if_pos h

theorem addToken_of_check_error {s : FeeState} {id : String} {e : FeeError}
    (h : checkAccount id = .error e) : s.addToken id = .error e := by
  rw [addToken, h]
  rfl

theorem removeToken_of_not_mem {s : FeeState} {id : String} (h : id ∉ s.tokens) :
    s.removeToken id = .error (.tokenAbsent id) := if_neg h

/-- **Removing a token** succeeds for one that is there. It is not checked: what is there has been.
-/
theorem removeToken_eq_ok_iff {s next : FeeState} {id : String} :
    s.removeToken id = .ok next ↔
      id ∈ s.tokens ∧ next = { s with tokens := s.tokens.erase id } := by
  rw [removeToken]
  split <;> simp_all [eq_comm]

/-- The new percent was read, and so it lies in the range. -/
theorem Valid.setPercent {s next : FeeState} {caller text : String} (h : s.Valid)
    (hs : s.setPercent caller text = .ok next) : next.Valid := by
  obtain ⟨-, p, hp, rfl⟩ := setPercent_eq_ok_iff.1 hs
  exact ⟨h.owner, Percent.parse_range hp, h.tokens⟩

/-- The new token was checked, and the others were valid before. -/
theorem Valid.addToken {s next : FeeState} {id : String} (h : s.Valid)
    (hs : s.addToken id = .ok next) : next.Valid := by
  obtain ⟨hid, -, rfl⟩ := addToken_eq_ok_iff.1 hs
  refine ⟨h.owner, h.percent, fun y hy => ?_⟩
  rcases TokenSet.mem_insert.1 hy with rfl | hy
  · exact hid
  · exact h.tokens y hy

/-- The tokens that are left were there before. -/
theorem Valid.removeToken {s next : FeeState} {id : String} (h : s.Valid)
    (hs : s.removeToken id = .ok next) : next.Valid := by
  obtain ⟨-, rfl⟩ := removeToken_eq_ok_iff.1 hs
  exact ⟨h.owner, h.percent, fun y hy => h.tokens y (TokenSet.mem_erase.1 hy).1⟩

theorem percentText_eq_ok_iff {s : FeeState} {text : String} :
    s.percentText = .ok text ↔ Percent.format? s.percent = some text := by
  rw [percentText]
  cases Percent.format? s.percent <;> simp

/-- Fee percents have few digits, so a valid state can always tell its percent. -/
theorem Valid.percentText {s : FeeState} (h : s.Valid) : ∃ text, s.percentText = .ok text := by
  have hrange := h.percent
  have hsmall : s.percent.natAbs < 10 ^ 28 := by
    simp only [Percent.least, Percent.greatest] at hrange
    omega
  rw [FeeState.percentText, Percent.format?_eq hsmall]
  exact ⟨_, rfl⟩

end TransferFees.FeeState
