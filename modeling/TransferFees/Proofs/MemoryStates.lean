import TransferFees.Proofs.FeeState
import TransferFees.Proofs.TokenSets

/-!
# Fee states in memory

A fee state in memory is made once and then takes commands for as long as it is there. Only `make`
checks a state as a whole. A command puts one part in the place of another and checks no more than
this part, so what `make` has seen to must survive any commands.

It does: at every point the parts of the state would be let in by `make` again and make the same
state (`new_keeps`). What a command can do to a state is said once (`apply_cases`): nothing at all,
or, if it succeeds, one of three changes.
-/

namespace TransferFees

namespace FeeState

/-- One change to a state in memory, by an operation that succeeds. -/
inductive Changes (s next : FeeState) : Prop where
  | percent {caller text : String} (h : s.setPercent caller text = .ok next)
  | added {id : String} (h : s.addToken id = .ok next)
  | removed {id : String} (h : s.removeToken id = .ok next)

section
variable {s next : FeeState}

/-! ## One command -/

/-- A command leaves the state as it is, or it succeeds and has made one change. -/
theorem apply_cases (s : FeeState) (c : Command) :
    (s.apply c).2 = s ∨ ∃ reply next, s.apply c = (.ok reply, next) ∧ s.Changes next := by
  cases c with
  | fee t => exact .inl rfl
  | percentText => exact .inl rfl
  | listTokens => exact .inl rfl
  | setPercent caller text =>
      cases h : s.setPercent caller text with
      | error e => simp [apply, h]
      | ok next => exact .inr ⟨.percent next.percent, next, by simp [apply, h], .percent h⟩
  | addToken id =>
      cases h : s.addToken id with
      | error e => simp [apply, h]
      | ok next => exact .inr ⟨.done, next, by simp [apply, h], .added h⟩
  | removeToken id =>
      cases h : s.removeToken id with
      | error e => simp [apply, h]
      | ok next => exact .inr ⟨.done, next, by simp [apply, h], .removed h⟩

theorem apply_of_error {c : Command} {e : FeeError} (h : (s.apply c).1 = .error e) :
    (s.apply c).2 = s := by
  rcases apply_cases s c with hsame | ⟨reply, next, happly, -⟩
  · exact hsame
  · rw [happly] at h
    cases h

theorem Valid.changes (h : s.Valid) (hc : s.Changes next) : next.Valid := by
  cases hc with
  | percent hs => exact h.setPercent hs
  | added hs => exact h.addToken hs
  | removed hs => exact h.removeToken hs

theorem Changes.owner_eq (h : s.Changes next) : next.owner = s.owner := by
  cases h with
  | percent hs =>
      obtain ⟨-, p, -, rfl⟩ := setPercent_eq_ok_iff.1 hs
      rfl
  | added hs =>
      obtain ⟨-, -, rfl⟩ := addToken_eq_ok_iff.1 hs
      rfl
  | removed hs =>
      obtain ⟨-, rfl⟩ := removeToken_eq_ok_iff.1 hs
      rfl

/-- **One command** keeps a valid state valid, and its owner. -/
theorem Valid.apply (h : s.Valid) (c : Command) :
    (s.apply c).2.Valid ∧ (s.apply c).2.owner = s.owner := by
  rcases apply_cases s c with hsame | ⟨reply, next, happly, hchanges⟩
  · rw [hsame]
    exact ⟨h, rfl⟩
  · rw [happly]
    exact ⟨h.changes hchanges, hchanges.owner_eq⟩

/-! ## Any commands -/

/-- The state after commands, one after the other. -/
def after (s : FeeState) : List Command → FeeState
  | [] => s
  | c :: rest => (s.apply c).2.after rest

theorem Valid.after (h : s.Valid) (commands : List Command) :
    (s.after commands).Valid ∧ (s.after commands).owner = s.owner := by
  induction commands generalizing s with
  | nil => exact ⟨h, rfl⟩
  | cons c rest ih =>
      obtain ⟨hvalid, howner⟩ := h.apply c
      obtain ⟨hlast, hsame⟩ := ih hvalid
      exact ⟨hlast, hsame.trans howner⟩

end

/-- **A state in memory stays as good as new.** After any commands its parts make the same state
again, whether the tokens are taken as the set they are or from the list that is told; the owner is
the one it was made for; the list tells the members of the set in ascending order; and a command
that fails does nothing. -/
theorem new_keeps {owner : String} {tokens : List String} {percent : Option Int} {s : FeeState}
    (hnew : new owner tokens percent = .ok s) (commands : List Command) :
    let now := s.after commands
    make now.owner now.percent now.tokens = .ok now ∧ now.owner = owner ∧
      (∃ ids, now.apply .listTokens = (.ok (.tokens ids), now) ∧ ids.Pairwise (· < ·) ∧
        (∀ id, id ∈ ids ↔ id ∈ now.tokens) ∧ new now.owner ids (some now.percent) = .ok now) ∧
      ∀ c e, (now.apply c).1 = .error e → (now.apply c).2 = now := by
  intro now
  obtain ⟨rfl, hs⟩ := make_eq_ok_iff.1 hnew
  obtain ⟨hnow, howner⟩ := hs.after commands
  have hmake : make now.owner now.percent now.tokens = .ok now := hnow.make
  refine ⟨hmake, howner, ⟨now.tokens.toList, rfl, now.tokens.sorted, fun id => Iff.rfl, ?_⟩,
    fun c e => apply_of_error⟩
  rw [new, TokenSet.ofList_toList]
  exact hmake

/-- Of seven commands three succeed. -/
theorem new_keeps_among_refusals :
    let s : FeeState := ⟨"alice.near", 500, .ofList ["usdt.near"]⟩
    let commands : List Command :=
      [.setPercent "bob.near" "7", .setPercent "alice.near" "7.5", .setPercent "alice.near" "70",
        .addToken "Wrap", .addToken "wrap.near", .addToken "wrap.near", .removeToken "usdt.near"]
    let now : FeeState := ⟨"alice.near", 750, .ofList ["wrap.near"]⟩
    new "alice.near" ["usdt.near", "usdt.near"] none = .ok s ∧ s.after commands = now ∧
      make now.owner now.percent now.tokens = .ok now ∧
      (now.apply (.removeToken "usdt.near")).1 = .error (.tokenAbsent "usdt.near") ∧
      (now.apply (.removeToken "usdt.near")).2 = now := by
  intro s commands now
  have hnew : new "alice.near" ["usdt.near", "usdt.near"] none = .ok s := rfl
  have hnow : s.after commands = now := rfl
  obtain ⟨hmake, -, -, hfailed⟩ := new_keeps hnew commands
  rw [hnow] at hmake hfailed
  exact ⟨hnew, hnow, hmake, rfl, hfailed _ _ rfl⟩

end FeeState

end TransferFees
