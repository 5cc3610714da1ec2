import TransferFees.Proofs.Histories

/-!
# What holds at every point of a history

Nothing in the tables keeps a percent in its range, a token an account id, an owner the owner, or
tokens away where there is no fee row. It all comes from what the actions store and refuse to store,
as long as no rows are written without asking the service. By `Action.effect` there are two things
to look at: an action that stores nothing, and one change that was made (`Change.Made.cases`). From
fresh storage on, `history_keeps` sums up what follows.
-/

namespace TransferFees

/-! ## Rows -/

/-- The rows that are stored. Without tables there are none. -/
def Storage.rows (s : Storage) : Tables := s.contents?.getD .fresh

/-- Nothing is stored: there are no tables, or they are empty. -/
def Storage.IsFresh (s : Storage) : Prop := s = .bare ∨ s = .ready .fresh

/-- Creating the tables adds no rows. -/
theorem Storage.rows_opened {s opened : Storage} (h : s.Opened opened) : opened.rows = s.rows := by
  rcases h with rfl | ⟨rfl, rfl⟩ <;> rfl

/-- Where nothing is stored there are no rows, with tables or without. -/
theorem Storage.IsFresh.rows {s : Storage} (h : s.IsFresh) : s.rows = .fresh := by
  rcases h with rfl | rfl <;> rfl

namespace Tables

/-- What is to hold of the rows at any time. That there is one fee row at most is in the type of
the tables. -/
structure Sound (t : Tables) : Prop where
  owner : ∀ row ∈ t.fees, AccountId.isValid row.owner = true
  percent : ∀ row ∈ t.fees, 1 ≤ row.percent ∧ row.percent ≤ 1000
  tokens : ∀ id ∈ t.tokens, AccountId.isValid id = true
  nodup : t.tokens.toList.Nodup
  orphans : t.fees = none → t.tokens = .empty

/-- Where there is a fee row in `t`, there is one of the same owner in `t'`. -/
def KeepsOwner (t t' : Tables) : Prop := ∀ row ∈ t.fees, ∃ row' ∈ t'.fees, row'.owner = row.owner

/-- The stored percent, if there is a fee row. -/
def percent? (t : Tables) : Option Int := t.fees.map FeeRow.percent

/-- Empty tables are sound: there is no row to be wrong, and no token without a row. -/
theorem sound_fresh : fresh.Sound where
  owner := nofun
  percent := nofun
  tokens := fun _ h => absurd h TokenSet.not_mem_empty
  nodup := TokenSet.nodup_toList _
  orphans := fun _ => rfl

theorem KeepsOwner.refl (t : Tables) : t.KeepsOwner t := fun row h => ⟨row, h, rfl⟩

/-- Owners are kept over any number of steps if each of them keeps them. -/
theorem KeepsOwner.trans {t t' t'' : Tables} (h : t.KeepsOwner t') (h' : t'.KeepsOwner t'') :
    t.KeepsOwner t'' := by
  intro row hrow
  obtain ⟨row', hrow', howner'⟩ := h row hrow
  obtain ⟨row'', hrow'', howner''⟩ := h' row' hrow'
  exact ⟨row'', hrow'', howner''.trans howner'⟩

end Tables

/-- The rows of a valid state are sound. That is all there is to prove of what a change leaves. -/
theorem FeeState.Valid.sound {s : FeeState} (h : s.Valid) : s.tables.Sound where
  owner := by
    rintro row ⟨⟩
    exact h.owner
  percent := by
    rintro row ⟨⟩
    exact h.percent
  tokens := h.tokens
  nodup := TokenSet.nodup_toList _
  orphans := nofun

/-! ## One change -/

/-- **A change that was made** leaves the rows of a valid state. Either there was no fee row, or the
owner is the same, and so is the percent unless the owner asked for another. -/
theorem Change.Made.cases {c : Change} {s s' : Storage} (h : c.Made s s') :
    ∃ next : FeeState, next.Valid ∧ s'.rows = next.tables ∧ (s.rows.fees = none ∨
      ∃ state : FeeState, s.rows = state.tables ∧ state.owner = next.owner ∧
        (next.percent = state.percent ∨ ∃ text, c = .setPercent state.owner text)) := by
  obtain ⟨t, e, next, rfl, houtcome, rfl⟩ := h
  rcases Change.outcome_cases houtcome with ⟨hfees, rfl, hvalid, -⟩ | ⟨state, rfl, hstate, hplanned⟩
  · exact ⟨next, hvalid, rfl, .inl hfees⟩
  · refine ⟨next, hplanned.valid hstate, hplanned.replay, .inr ⟨state, rfl, ?_⟩⟩
    cases hplanned with
    | setPercent hcaller hparse =>
        subst hcaller
        exact ⟨rfl, .inr ⟨_, rfl⟩⟩
    | addToken hid hnew => exact ⟨rfl, .inl rfl⟩
    | removeToken hid => exact ⟨rfl, .inl rfl⟩

/-! ## One action -/

/-- Only one method on one path leads to setting the percent. -/
theorem Http.setPercent_of_route {r : Http.Request}
    (h : Http.Route.ofRequest r = .endpoint .setPercent) :
    r.method = "PUT" ∧
      Http.Resource.ofPath? (Text.PercentEncoding.decode r.rawPath) = some .percent := by
  obtain ⟨resource, hresource, hmethod⟩ := Route.methods_of_endpoint h
  cases resource <;> simp [Resource.methods] at hmethod
  exact ⟨hmethod, hresource⟩

namespace Action

/-- The action asks for another percent in the name of `caller`. The caller of a request is the
value of its caller header, without the blanks at the ends. -/
def AsksPercent (caller : String) : Action → Prop
  | .step x => ∃ text, x = .setPercent caller text
  | .request _ r =>
    r.method = "PUT" ∧
      Http.Resource.ofPath? (Text.PercentEncoding.decode r.rawPath) = some .percent ∧
      r.caller = .ok caller
  | .setup _ _ => False

/-- Whatever way a change of the percent comes in, it is asked for in the name of its caller. -/
theorem asksPercent_of_change? {a : Action} {caller text : String}
    (h : a.change? = some (.setPercent caller text)) : a.AsksPercent caller := by
  cases a with
  | step x =>
      cases x <;> cases h
      exact ⟨text, rfl⟩
  | request settings r =>
      simp only [change?] at h
      obtain ⟨hmethod, hpath⟩ := Http.setPercent_of_route (Http.Request.route_of_setPercent h)
      exact ⟨hmethod, hpath, Http.Request.caller_of_change? h rfl⟩
  | setup settings argv =>
      obtain ⟨_, _, -, -, hc⟩ := Setup.of_change? h
      cases hc

section
variable {a : Action} {s : Storage}

/-- The rows stay what they are, or the action succeeds and its one change was made on them. Tables
may be created in between, which the rows do not show. -/
theorem rows_after (hraw : a.isRaw = false) (s : Storage) :
    (a.after s).rows = s.rows ∨
      ¬a.Fails s ∧ ∃ c opened, a.change? = some c ∧ opened.rows = s.rows ∧
        c.Made opened (a.after s) := by
  obtain ⟨opened, hopened, hsame | ⟨hsuccess, c, hc, hmade⟩⟩ := effect hraw s
  · rw [hsame]
    exact .inl (Storage.rows_opened hopened)
  · exact .inr ⟨hsuccess, c, opened, hc, Storage.rows_opened hopened, hmade⟩

/-- **One action keeps the rows sound**, for each change leaves the rows of a valid state. -/
theorem sound_after (hraw : a.isRaw = false) (hs : s.rows.Sound) : (a.after s).rows.Sound := by
  rcases rows_after hraw s with hsame | ⟨-, c, opened, -, -, hmade⟩
  · rw [hsame]
    exact hs
  · obtain ⟨next, hvalid, hnext, -⟩ := hmade.cases
    rw [hnext]
    exact hvalid.sound

/-- **One action keeps the owner.** No change puts another in its place. -/
theorem keepsOwner_after (hraw : a.isRaw = false) (s : Storage) :
    s.rows.KeepsOwner (a.after s).rows := by
  rcases rows_after hraw s with hsame | ⟨-, c, opened, -, hrows, hmade⟩
  · rw [hsame]
    exact .refl _
  · obtain ⟨next, -, hnext, hnone | ⟨state, hstate, howner, -⟩⟩ := hmade.cases
    · rw [← hrows]
      intro row hrow
      rw [hnone] at hrow
      cases hrow
    · rw [← hrows, hstate, hnext]
      rintro row ⟨⟩
      exact ⟨_, rfl, howner.symm⟩

/-- **One action changes the percent** only by creating the fee row, or if the owner of that row has
asked for it and the action succeeds. -/
theorem percent_after (hraw : a.isRaw = false)
    (h : (a.after s).rows.percent? ≠ s.rows.percent?) :
    (s.rows.fees = none ∧ (a.after s).rows.fees.isSome) ∨
      ∃ row ∈ s.rows.fees, ¬a.Fails s ∧ a.AsksPercent row.owner := by
  rcases rows_after hraw s with hsame | ⟨hsuccess, c, opened, hc, hrows, hmade⟩
  · rw [hsame] at h
    exact absurd rfl h
  · obtain ⟨next, -, hnext, hnone | ⟨state, hstate, -, hpercent⟩⟩ := hmade.cases
    · rw [hrows] at hnone
      rw [hnext]
      exact .inl ⟨hnone, rfl⟩
    · rw [hrows] at hstate
      rcases hpercent with hpercent | ⟨text, rfl⟩
      · rw [hnext, hstate] at h
        exact absurd (congrArg some hpercent) h
      · rw [hstate]
        exact .inr ⟨_, rfl, hsuccess, asksPercent_of_change? hc⟩

end

/-! ## Histories -/

/-- What is stored after a history. -/
def afterAll (history : List Action) (s : Storage) : Storage :=
  history.foldl (fun s a => a.after s) s

/-- Soundness over a history, by induction from one action to the next. -/
theorem sound_afterAll {history : List Action} (hraw : ∀ a ∈ history, a.isRaw = false)
    {s : Storage} (hs : s.rows.Sound) : (afterAll history s).rows.Sound := by
  induction history generalizing s with
  | nil => exact hs
  | cons a rest ih =>
      obtain ⟨ha, hrest⟩ := List.forall_mem_cons.1 hraw
      exact ih hrest (sound_after ha hs)

/-- The owner over a history, by the same induction. -/
theorem keepsOwner_afterAll {history : List Action} (hraw : ∀ a ∈ history, a.isRaw = false)
    (s : Storage) : s.rows.KeepsOwner (afterAll history s).rows := by
  induction history generalizing s with
  | nil => exact .refl _
  | cons a rest ih =>
      obtain ⟨ha, hrest⟩ := List.forall_mem_cons.1 hraw
      exact (keepsOwner_after ha s).trans (ih hrest (a.after s))

/-- **At every point of a history** that begins with fresh storage the rows are sound; whatever
follows, a fee row stays and stays with its owner; and another percent is stored only where a fee
row is created, or by an action that succeeds and was asked for by the owner. -/
theorem history_keeps {start : Storage} (hstart : start.IsFresh) {history : List Action}
    (hraw : ∀ a ∈ history, a.isRaw = false) :
    let s := afterAll history start
    s.rows.Sound ∧
      (∀ later : List Action, (∀ a ∈ later, a.isRaw = false) →
        s.rows.KeepsOwner (afterAll later s).rows) ∧
      ∀ a : Action, a.isRaw = false → (a.after s).rows.percent? ≠ s.rows.percent? →
        (s.rows.fees = none ∧ (a.after s).rows.fees.isSome) ∨
          ∃ row ∈ s.rows.fees, ¬a.Fails s ∧ a.AsksPercent row.owner := by
  intro s
  have hfresh : start.rows.Sound := by
    rw [hstart.rows]
    exact Tables.sound_fresh
  refine ⟨sound_afterAll hraw hfresh, ?_, ?_⟩
  · intro later hlater
    exact keepsOwner_afterAll hlater s
  · intro a ha h
    exact percent_after ha h

/-- The setup command creates the tables and the fee state, and then the owner asks for another
percent. -/
theorem history_keeps_setup :
    let history : List Action :=
      [.setup {} ["--owner", "alice.near", "usdt.near"], .step (.setPercent "alice.near" "3")]
    let s := afterAll history .bare
    Storage.bare.IsFresh ∧ (∀ a ∈ history, a.isRaw = false) ∧
      s = .ready ⟨some ⟨"alice.near", 300⟩, .ofList ["usdt.near"]⟩ ∧ s.rows.Sound := by
  intro history s
  have hfresh : Storage.bare.IsFresh := .inl rfl
  have hraw : ∀ a ∈ history, a.isRaw = false := by decide
  have hsetup : (Action.setup {} ["--owner", "alice.near", "usdt.near"]).after .bare =
      .ready ⟨some ⟨"alice.near", 500⟩, .ofList ["usdt.near"]⟩ := rfl
  have hpercent : (Action.step (.setPercent "alice.near" "3")).after
      (.ready ⟨some ⟨"alice.near", 500⟩, .ofList ["usdt.near"]⟩) =
      .ready ⟨some ⟨"alice.near", 300⟩, .ofList ["usdt.near"]⟩ := rfl
  have hs : s = .ready ⟨some ⟨"alice.near", 300⟩, .ofList ["usdt.near"]⟩ := by
    simp only [s, history, afterAll, List.foldl_cons, List.foldl_nil, hsetup, hpercent]
  exact ⟨hfresh, hraw, hs, (history_keeps hfresh hraw).1⟩

end Action

end TransferFees
