import TransferFees.Proofs.Effects

/-!
# Changes one after the other

What successful changes do to each other, in the order in which they were made (`Change.MadeAll`).

**Creation.** Once a change was made there is a fee state, and from then on it cannot be created
again (`MadeAll.countP_isEstablish_le`).

**Tokens.** A change that is about a token puts it in or takes it out (`Change.leaves?`), and
neither is done twice running (`MadeAll.alternate`).
-/

namespace TransferFees

/-- What is stored is the rows of the given fee state, which is valid. -/
def Storage.Holds (s : Storage) (state : FeeState) : Prop := state.Valid ∧ s = .ready state.tables

namespace Change

/-- Whether the change is to create the fee state. -/
def isEstablish : Change → Bool
  | .establish .. => true
  | _ => false

/-- Whether a token is there after the change, if the change is about this token. -/
def leaves? (id : String) : Change → Option Bool
  | .addToken other => if other = id then some true else none
  | .removeToken other => if other = id then some false else none
  | _ => none

section
variable {c : Change} {s s' : Storage} {state : FeeState} {plan : Plan} {id : String} {there : Bool}

/-- Only adding a token leaves it there, and only removing it leaves it out. -/
theorem leaves?_eq_some_true_iff : c.leaves? id = some true ↔ c = .addToken id := by
  cases c <;> simp [leaves?]

theorem leaves?_eq_some_false_iff : c.leaves? id = some false ↔ c = .removeToken id := by
  cases c <;> simp [leaves?]

theorem Planned.isEstablish_eq_false (h : c.Planned state plan) : c.isEstablish = false := by
  cases h <;> rfl

theorem Planned.owner (h : c.Planned state plan) : plan.next.owner = state.owner := by
  cases h <;> rfl

/-- A change that is about a token finds it as it does not leave it. -/
theorem Planned.mem_iff_of_leaves (h : c.Planned state plan) (hc : c.leaves? id = some there) :
    (id ∈ state.tokens ↔ there = false) ∧ (id ∈ plan.next.tokens ↔ there = true) := by
  cases h with
  | setPercent hcaller hparse => cases hc
  | @addToken other hid hnew =>
      simp only [leaves?, Option.ite_none_right_eq_some, Option.some.injEq] at hc
      obtain ⟨rfl, rfl⟩ := hc
      simp [hnew, TokenSet.mem_insert]
  | @removeToken other hid =>
      simp only [leaves?, Option.ite_none_right_eq_some, Option.some.injEq] at hc
      obtain ⟨rfl, rfl⟩ := hc
      simp [hid, TokenSet.mem_erase]

/-- A change that is about something else leaves the token as it is. -/
theorem Planned.mem_iff_of_not_leaves (h : c.Planned state plan) (hc : c.leaves? id = none) :
    id ∈ plan.next.tokens ↔ id ∈ state.tokens := by
  cases h with
  | setPercent hcaller hparse => rfl
  | @addToken other hid hnew =>
      have hne : ¬other = id := by simpa [leaves?] using hc
      simp [TokenSet.mem_insert, Ne.symm hne]
  | @removeToken other hid =>
      have hne : ¬other = id := by simpa [leaves?] using hc
      simp [TokenSet.mem_erase, Ne.symm hne]

theorem Made.exists_holds (h : c.Made s s') : ∃ next, s'.Holds next := by
  obtain ⟨t, e, next, rfl, houtcome, rfl⟩ := h
  rcases outcome_cases houtcome with ⟨-, rfl, hvalid, -⟩ | ⟨state, rfl, hstate, hplanned⟩
  · exact ⟨next, hvalid, rfl⟩
  · exact ⟨next, hplanned.valid hstate, congrArg Storage.ready hplanned.replay⟩

/-- Where a fee state is stored, a change that is made was planned on it. -/
theorem Made.planned (h : c.Made s s') (hs : s.Holds state) :
    ∃ plan, c.Planned state plan ∧ s'.Holds plan.next := by
  obtain ⟨hstate, rfl⟩ := hs
  obtain ⟨t, e, next, ht, houtcome, rfl⟩ := h
  cases ht
  rw [outcome_of_valid hstate] at houtcome
  obtain ⟨plan, hplan, hpair⟩ := Except.map_eq_ok_iff.1 houtcome
  cases hpair
  have hplanned := Change.planned hplan
  exact ⟨plan, hplanned, hplanned.valid hstate, congrArg Storage.ready hplanned.replay⟩

/-- The fee state that is created belongs to the one who asked for it. -/
theorem Made.of_establish {caller : String} {tokens : List String} {standard : Option String}
    (h : (establish caller tokens standard).Made s s') :
    ∃ next, s'.Holds next ∧ next.owner = caller := by
  obtain ⟨t, e, next, rfl, houtcome, rfl⟩ := h
  rcases outcome_cases houtcome with ⟨-, rfl, hvalid, _, _, _, hc, howner⟩ | ⟨s, -, -, hplanned⟩
  · cases hc
    exact ⟨next, ⟨hvalid, rfl⟩, howner⟩
  · cases hplanned.isEstablish_eq_false

/-- Only where there is no fee row can the fee state be created. -/
theorem Made.fees_of_establish {caller : String} {tokens : List String} {standard : Option String}
    {t : Tables} (h : (establish caller tokens standard).Made (.ready t) s') : t.fees = none := by
  obtain ⟨t', e, next, ht, houtcome, -⟩ := h
  cases ht
  rcases outcome_cases houtcome with ⟨hfees, -⟩ | ⟨s, -, -, hplanned⟩
  · exact hfees
  · cases hplanned.isEstablish_eq_false

/-- Only where a fee state is stored can a change be made that does not create it. -/
theorem Made.exists_held (h : c.Made s s') (hc : c.isEstablish = false) :
    ∃ state, s.Holds state := by
  obtain ⟨t, e, next, rfl, houtcome, rfl⟩ := h
  rcases outcome_cases houtcome with ⟨-, -, -, _, _, _, rfl, -⟩ | ⟨state, rfl, hstate, -⟩
  · cases hc
  · exact ⟨state, hstate, rfl⟩

/-- A change that is made and does not create the fee state was planned on the one that is stored. -/
theorem Made.exists_planned (h : c.Made s s') (hc : c.isEstablish = false) :
    ∃ state plan, s.Holds state ∧ c.Planned state plan ∧ s'.Holds plan.next := by
  obtain ⟨state, hstate⟩ := h.exists_held hc
  obtain ⟨plan, hplanned, hnext⟩ := h.planned hstate
  exact ⟨state, plan, hstate, hplanned, hnext⟩

end

/-! ## Runs of changes -/

/-- The changes are made one after the other, the first of them on `s`, and `s'` is stored in the
end. -/
inductive MadeAll : Storage → List Change → Storage → Prop where
  | nil (s : Storage) : MadeAll s [] s
  | cons {c : Change} {rest : List Change} {s s' s'' : Storage} (first : c.Made s s')
      (later : MadeAll s' rest s'') : MadeAll s (c :: rest) s''

namespace MadeAll

variable {cs cs' : List Change} {s s' s'' : Storage} {state : FeeState} {id : String} {there : Bool}

theorem append (h : MadeAll s cs s') (h' : MadeAll s' cs' s'') : MadeAll s (cs ++ cs') s'' := by
  induction h with
  | nil s => exact h'
  | cons first _ ih => exact .cons first (ih h')

theorem of_append (h : MadeAll s (cs ++ cs') s'') :
    ∃ s', MadeAll s cs s' ∧ MadeAll s' cs' s'' := by
  induction cs generalizing s with
  | nil => exact ⟨s, .nil s, h⟩
  | cons c rest ih =>
      cases h with
      | cons first later =>
          obtain ⟨s', hrest, hcs'⟩ := ih later
          exact ⟨s', .cons first hrest, hcs'⟩

/-- Whatever changes are made, there is a fee state of the same owner. -/
theorem holds (h : MadeAll s cs s') (hs : s.Holds state) :
    ∃ state', s'.Holds state' ∧ state'.owner = state.owner := by
  induction h generalizing state with
  | nil s => exact ⟨state, hs, rfl⟩
  | cons first _ ih =>
      obtain ⟨plan, hplanned, hnext⟩ := first.planned hs
      obtain ⟨state', hstate', howner⟩ := ih hnext
      exact ⟨state', hstate', howner.trans hplanned.owner⟩

/-- Where a fee state is, no later change creates one. -/
theorem countP_isEstablish_of_holds (h : MadeAll s cs s') (hs : s.Holds state) :
    cs.countP isEstablish = 0 := by
  induction h generalizing state with
  | nil s => rfl
  | cons first _ ih =>
      obtain ⟨plan, hplanned, hnext⟩ := first.planned hs
      rw [List.countP_cons_of_neg (by simp [hplanned.isEstablish_eq_false]), ih hnext]

/-- **The fee state is created once at most.** -/
theorem countP_isEstablish_le (h : MadeAll s cs s') : cs.countP isEstablish ≤ 1 := by
  cases h with
  | nil => exact Nat.zero_le 1
  | @cons c rest _ s₁ _ first later =>
      obtain ⟨next, hnext⟩ := first.exists_holds
      have hrest : rest.countP isEstablish = 0 := later.countP_isEstablish_of_holds hnext
      rw [List.countP_cons, hrest]
      split <;> simp

/-- As long as no change does the opposite, a token stays there, or stays away. -/
theorem stays (h : MadeAll s cs s') (hs : s.Holds state)
    (hid : id ∈ state.tokens ↔ there = true) (hcs : ∀ c ∈ cs, c.leaves? id ≠ some (!there)) :
    ∃ state', s'.Holds state' ∧ (id ∈ state'.tokens ↔ there = true) := by
  induction h generalizing state with
  | nil s => exact ⟨state, hs, hid⟩
  | @cons c rest s s₁ s' first later ih =>
      obtain ⟨hc, hrest⟩ := List.forall_mem_cons.1 hcs
      obtain ⟨plan, hplanned, hnext⟩ := first.planned hs
      refine ih hnext ?_ hrest
      cases hleaves : c.leaves? id with
      | none => rw [hplanned.mem_iff_of_not_leaves hleaves, hid]
      | some left =>
          have hleft : left = there := by
            rw [hleaves] at hc
            cases left <;> cases there <;> simp_all
          rw [(hplanned.mem_iff_of_leaves hleaves).2, hleft]

/-- **Adding and removing a token alternate.** Between two changes that leave it in the same way
there is one that leaves it in the other. -/
theorem alternate {before between after : List Change} {c c' : Change}
    (h : MadeAll s (before ++ c :: between ++ c' :: after) s') (hc : c.leaves? id = some there)
    (hc' : c'.leaves? id = some there) : ∃ d ∈ between, d.leaves? id = some (!there) := by
  refine Classical.byContradiction fun hnone => ?_
  have hbetween : ∀ d ∈ between, d.leaves? id ≠ some (!there) := fun d hd hd' => hnone ⟨d, hd, hd'⟩
  have hc_new : c.isEstablish = false := by cases c <;> simp_all [leaves?, isEstablish]
  obtain ⟨s₂, hfirst, hlast⟩ := of_append h
  obtain ⟨s₁, -, hfirst⟩ := of_append hfirst
  cases hfirst with
  | cons first rest =>
      obtain ⟨state, plan, -, hplanned, hnext⟩ := first.exists_planned hc_new
      -- the token stays as `c` has left it, and so `c'` cannot have been made
      obtain ⟨state', hstate', hstays⟩ :=
        rest.stays hnext (hplanned.mem_iff_of_leaves hc).2 hbetween
      cases hlast with
      | cons last _ =>
          obtain ⟨plan', hplanned', -⟩ := last.planned hstate'
          have hfinds := (hplanned'.mem_iff_of_leaves hc').1
          rw [hstays] at hfinds
          cases there <;> simp at hfinds

end MadeAll

end Change

end TransferFees
