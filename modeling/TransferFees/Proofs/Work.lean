import TransferFees.Work

/-!
# Reasoning about units of work

A unit of work is a function of its draft, so every run of it can be computed, and the equations of
the first section do so one step at a time. Many facts about the long units of work of the service
need no computing, though. They hold of a unit of work because they hold of its parts:

* `Quiet` — the storage in the draft is left alone.
* `Gives P` — a value that comes out has the property `P`.
* `Logs P` — the log is only added to, by entries with the property `P`, and what was in it before
  makes no difference.
* `StoresLike v` — a success is a success of `v` too, and leaves the same storage behind.
* `Yields d a`, `Fails d e` — from the draft `d` on, the value `a` or the error `e` comes out,
  whatever is left in the draft.

Each has a rule for every primitive that has it and one for `>>=`. What they come to once the unit
of work is committed is said at the end.
-/

namespace TransferFees.Work

variable {α β γ : Type}

/-! ## One step of a run -/

@[simp] theorem fail_apply (e : FeeError) (d : Draft) : (fail e : Work α) d = (.error e, d) := rfl

/-- What was computed beforehand is taken over, and the draft is left as it is. -/
@[simp] theorem ofExcept_apply (x : Except FeeError α) (d : Draft) : ofExcept x d = (x, d) := by
  cases x <;> rfl

/-- Where the tables are there, reading gives what is in the draft, which earlier writes of the same
unit of work have been put into. -/
@[simp] theorem readTables_ready (first : Table) (t : Tables) (log : List LogEntry) :
    readTables first ⟨.ready t, log⟩ = (.ok t, ⟨.ready t, log⟩) := rfl

/-- A write takes the place of all that the draft held. -/
@[simp] theorem writeTables_apply (t : Tables) (d : Draft) :
    writeTables t d = (.ok (), ⟨.ready t, d.log⟩) := rfl

/-- After a success the run goes on from the draft that was left behind. -/
theorem bind_of_ok {w : Work α} {f : α → Work β} {d d' : Draft} {a : α} (h : w d = (.ok a, d')) :
    (w >>= f) d = f a d' := by
  rw [bind_apply, h]

/-- After an error nothing more is run, and the draft stays as the error left it. -/
theorem bind_of_error {w : Work α} {f : α → Work β} {d d' : Draft} {e : FeeError}
    (h : w d = (.error e, d')) : (w >>= f) d = (.error e, d') := by
  rw [bind_apply, h]

/-- A composition that succeeds can be taken apart again. -/
theorem of_bind_ok {w : Work α} {f : α → Work β} {d d'' : Draft} {b : β}
    (h : (w >>= f) d = (.ok b, d'')) : ∃ a d', w d = (.ok a, d') ∧ f a d' = (.ok b, d'') := by
  rcases hw : w d with ⟨r, d'⟩
  cases r with
  | ok a => exact ⟨a, d', rfl, by rw [← h, bind_of_ok hw]⟩
  | error e =>
      rw [bind_of_error hw] at h
      cases h

instance : LawfulMonad Work := LawfulMonad.mk' Work
  (by
    intro α w
    funext d
    change (w >>= pure) d = w d
    rcases h : w d with ⟨r, d'⟩
    cases r with
    | ok a => exact bind_of_ok h
    | error e => exact bind_of_error h)
  (by
    intro α β a f
    rfl)
  (by
    intro α β γ w f g
    funext d
    rcases h : w d with ⟨r, d'⟩
    cases r with
    | ok a =>
        rw [bind_of_ok h, bind_apply, bind_of_ok h]
        rfl
    | error e =>
        rw [bind_of_error h, bind_of_error (bind_of_error h)])

/-- A value that is only wrapped or unwrapped leaves the draft as it was. -/
theorem bind_pure_apply (w : Work α) (f : α → β) (d : Draft) :
    (w >>= fun a => pure (f a)) d = ((w d).1.map f, (w d).2) := by
  rcases h : w d with ⟨r, d'⟩
  cases r with
  | ok a => exact bind_of_ok h
  | error e => exact bind_of_error h

/-! ## Leaving storage alone -/

/-- The storage in the draft is the same before and after. -/
def Quiet (w : Work α) : Prop := ∀ d, (w d).2.storage = d.storage

theorem quiet_pure (a : α) : (pure a : Work α).Quiet := fun _ => rfl

theorem quiet_ofExcept (x : Except FeeError α) : (ofExcept x).Quiet := by
  intro d
  rw [ofExcept_apply]

/-- Reading is quiet, also where it fails for want of tables. -/
theorem quiet_readTables (first : Table) : (readTables first).Quiet := by
  intro d
  rw [readTables]
  split <;> rfl

theorem quiet_record (entry : LogEntry) : (record entry).Quiet := fun _ => rfl

/-- Quiet parts make up a quiet whole. The second part has to be quiet for every value, because
which one comes out is not known. -/
theorem Quiet.bind {w : Work α} {f : α → Work β} (hw : w.Quiet) (hf : ∀ a, (f a).Quiet) :
    (w >>= f).Quiet := by
  intro d
  rcases h : w d with ⟨r, d'⟩
  have hd : d'.storage = d.storage := by
    have h' := hw d
    rwa [h] at h'
  cases r with
  | ok a => rw [bind_of_ok h, hf a d', hd]
  | error e => rw [bind_of_error h, hd]

/-! ## Values with a property -/

/-- A value that comes out has the property `P`. -/
def Gives (P : α → Prop) (w : Work α) : Prop := ∀ d a d', w d = (.ok a, d') → P a

/-- The value that is given is the only one that can come out. -/
theorem gives_pure {P : α → Prop} {a : α} (h : P a) : (pure a : Work α).Gives P := by
  intro d b d' he
  cases he
  exact h

/-- Only the last part of a composition decides what value comes out. -/
theorem gives_bind {P : β → Prop} {w : Work α} {f : α → Work β} (hf : ∀ a, (f a).Gives P) :
    (w >>= f).Gives P := by
  intro d b d'' h
  obtain ⟨a, d', -, hb⟩ := of_bind_ok h
  exact hf a d' b d'' hb

/-! ## Adding to the log -/

/-- Whatever the log holds, the same is done, and entries with the property `P` are added. -/
def Logs (P : LogEntry → Prop) (w : Work α) : Prop :=
  ∀ s, ∃ r s' entries, (∀ entry ∈ entries, P entry) ∧
    ∀ log, w ⟨s, log⟩ = (r, ⟨s', log ++ entries⟩)

section
variable {P Q : LogEntry → Prop}

theorem logs_pure (a : α) : (pure a : Work α).Logs P := by
  intro s
  exact ⟨.ok a, s, [], by simp, fun log => by rw [pure_apply, List.append_nil]⟩

theorem logs_fail (e : FeeError) : (fail e : Work α).Logs P := by
  intro s
  exact ⟨.error e, s, [], by simp, fun log => by rw [fail_apply, List.append_nil]⟩

theorem logs_ofExcept (x : Except FeeError α) : (ofExcept x).Logs P := by
  intro s
  exact ⟨x, s, [], by simp, fun log => by rw [ofExcept_apply, List.append_nil]⟩

/-- Whether reading succeeds depends on storage alone. -/
theorem logs_readTables (first : Table) : (readTables first).Logs P := by
  intro s
  cases h : s.tables first with
  | ok t => exact ⟨.ok t, s, [], by simp, fun log => by simp [readTables, h]⟩
  | error fault =>
      exact ⟨.error (.storage fault), s, [], by simp, fun log => by simp [readTables, h]⟩

theorem logs_writeTables (t : Tables) : (writeTables t).Logs P := by
  intro s
  exact ⟨.ok (), .ready t, [], by simp, fun log => by simp⟩

/-- Recording adds one entry behind all others. -/
theorem logs_record {entry : LogEntry} (h : P entry) : (record entry).Logs P := by
  intro s
  exact ⟨.ok (), s, [entry], by simpa using h, fun log => rfl⟩

/-- The entries of the second part come behind those of the first; neither looks at what the log
holds. -/
theorem Logs.bind {w : Work α} {f : α → Work β} (hw : w.Logs P) (hf : ∀ a, (f a).Logs P) :
    (w >>= f).Logs P := by
  intro s
  obtain ⟨r, s', entries, hP, hw⟩ := hw s
  cases r with
  | error e => exact ⟨.error e, s', entries, hP, fun log => bind_of_error (hw log)⟩
  | ok a =>
      obtain ⟨r', s'', more, hP', hf⟩ := hf a s'
      refine ⟨r', s'', entries ++ more, ?_, fun log => ?_⟩
      · intro entry hentry
        rcases List.mem_append.1 hentry with h | h
        · exact hP entry h
        · exact hP' entry h
      · rw [bind_of_ok (hw log), hf, List.append_assoc]

theorem Logs.mono {w : Work α} (hw : w.Logs P) (h : ∀ entry, P entry → Q entry) : w.Logs Q := by
  intro s
  obtain ⟨r, s', entries, hP, hw⟩ := hw s
  exact ⟨r, s', entries, fun entry hentry => h entry (hP entry hentry), hw⟩

end

/-! ## Storing the same -/

/-- When `w` succeeds so does `v`, and both leave the same storage behind. -/
def StoresLike (w : Work β) (v : Work α) : Prop :=
  ∀ d b d', w d = (.ok b, d') → ∃ a d'', v d = (.ok a, d'') ∧ d''.storage = d'.storage

/-- The beginning of every such fact: a change stores what it stores. -/
theorem StoresLike.refl (w : Work α) : w.StoresLike w := fun _ a d' h => ⟨a, d', h, rfl⟩

/-- What follows and is quiet changes nothing in this respect. -/
theorem StoresLike.bind {v : Work α} {w : Work β} {f : β → Work γ} (hw : w.StoresLike v)
    (hf : ∀ b, (f b).Quiet) : (w >>= f).StoresLike v := by
  intro d c d'' h
  obtain ⟨b, d', hb, hc⟩ := of_bind_ok h
  obtain ⟨a, e, ha, hs⟩ := hw d b d' hb
  refine ⟨a, e, ha, ?_⟩
  have hq := hf b d'
  rw [hc] at hq
  rw [hs, hq]

/-! ## Values and errors that come out -/

/-- From the draft `d` on the value `a` comes out. -/
def Yields (w : Work α) (d : Draft) (a : α) : Prop := ∃ d', w d = (.ok a, d')

/-- From the draft `d` on the error `e` comes out. -/
def Fails (w : Work α) (d : Draft) (e : FeeError) : Prop := ∃ d', w d = (.error e, d')

theorem yields_pure (a : α) (d : Draft) : (pure a : Work α).Yields d a := ⟨d, rfl⟩

theorem yields_record (entry : LogEntry) (d : Draft) : (record entry).Yields d () := ⟨_, rfl⟩

/-- A value that was computed beforehand comes out. -/
theorem yields_ofExcept {x : Except FeeError α} {a : α} (h : x = .ok a) (d : Draft) :
    (ofExcept x).Yields d a := ⟨d, by rw [ofExcept_apply, h]⟩

/-- Values come out one after the other. The first leaves some draft behind, so the second has to
come out from any. -/
theorem Yields.bind {w : Work α} {f : α → Work β} {d : Draft} {a : α} {b : β} (hw : w.Yields d a)
    (hf : ∀ d', (f a).Yields d' b) : (w >>= f).Yields d b := by
  obtain ⟨d', hw⟩ := hw
  obtain ⟨d'', hf⟩ := hf d'
  exact ⟨d'', by rw [bind_of_ok hw, hf]⟩

/-- The first part that fails gives the error. -/
theorem Fails.bind {w : Work α} {f : α → Work β} {d : Draft} {e : FeeError} (hw : w.Fails d e) :
    (w >>= f).Fails d e := by
  obtain ⟨d', hw⟩ := hw
  exact ⟨d', bind_of_error hw⟩

/-! ## Committing -/

/-- What succeeds is stored as the draft has it. -/
theorem commit_of_ok {w : Work α} {s : Storage} {a : α} {d : Draft} (h : w ⟨s, []⟩ = (.ok a, d)) :
    w.commit s = ⟨.ok a, d.storage, d.log⟩ := by
  rw [commit, h]

/-- **What fails stores nothing**: the storage is that of the beginning, and the log is kept. -/
theorem commit_of_error {w : Work α} {s : Storage} {e : FeeError} {d : Draft}
    (h : w ⟨s, []⟩ = (.error e, d)) : w.commit s = ⟨.error e, s, d.log⟩ := by
  rw [commit, h]

/-- A result that was committed came out of the run, and the other way round (`Yields.commit`). -/
theorem yields_of_commit {w : Work α} {s : Storage} {a : α} (h : (w.commit s).result = .ok a) :
    w.Yields ⟨s, []⟩ a := by
  rcases hw : w ⟨s, []⟩ with ⟨r, d⟩
  cases r with
  | ok b =>
      rw [commit_of_ok hw] at h
      cases h
      exact ⟨d, hw⟩
  | error e =>
      rw [commit_of_error hw] at h
      cases h

/-- The same of errors (`Fails.commit`). -/
theorem fails_of_commit {w : Work α} {s : Storage} {e : FeeError}
    (h : (w.commit s).result = .error e) : w.Fails ⟨s, []⟩ e := by
  rcases hw : w ⟨s, []⟩ with ⟨r, d⟩
  cases r with
  | ok a =>
      rw [commit_of_ok hw] at h
      cases h
  | error e' =>
      rw [commit_of_error hw] at h
      cases h
      exact ⟨d, hw⟩

/-- Where the draft is what is stored, it makes no difference whether it is kept. -/
theorem commit_of_unchanged {w : Work α} {s : Storage} {r : Except FeeError α}
    {log : List LogEntry} (h : w ⟨s, []⟩ = (r, ⟨s, log⟩)) : w.commit s = ⟨r, s, log⟩ := by
  cases r with
  | ok a => exact commit_of_ok h
  | error e => exact commit_of_error h

/-- **A failure stores nothing**, however much was written before it. -/
theorem storage_of_commit_error {w : Work α} {s : Storage} {e : FeeError}
    (h : (w.commit s).result = .error e) : (w.commit s).storage = s := by
  obtain ⟨d, hw⟩ := fails_of_commit h
  rw [commit_of_error hw]

/-- A quiet unit of work stores nothing, whether it succeeds or fails. -/
theorem Quiet.commit {w : Work α} (hw : w.Quiet) (s : Storage) : (w.commit s).storage = s := by
  rcases h : w ⟨s, []⟩ with ⟨r, d⟩
  have hd : d.storage = s := by
    have h' := hw ⟨s, []⟩
    rwa [h] at h'
  cases r with
  | ok a => rw [commit_of_ok h, hd]
  | error e => rw [commit_of_error h]

/-- The property holds of the value that is handed out. -/
theorem Gives.commit {P : α → Prop} {w : Work α} (hw : w.Gives P) {s : Storage} {a : α}
    (h : (w.commit s).result = .ok a) : P a := by
  obtain ⟨d, hr⟩ := yields_of_commit h
  exact hw _ _ _ hr

/-- Every entry of the log is one of those that were added, for the log of a draft begins empty. -/
theorem Logs.commit {P : LogEntry → Prop} {w : Work α} (hw : w.Logs P) (s : Storage) :
    ∀ entry ∈ (w.commit s).log, P entry := by
  obtain ⟨r, s', entries, hP, hw⟩ := hw s
  have h := hw []
  rw [List.nil_append] at h
  cases r with
  | ok a => rwa [commit_of_ok h]
  | error e => rwa [commit_of_error h]

/-- Where the one succeeds the other would have, and would have stored the same. -/
theorem StoresLike.commit {v : Work α} {w : Work β} (hw : w.StoresLike v) {s : Storage} {b : β}
    (h : (w.commit s).result = .ok b) :
    ∃ a, (v.commit s).result = .ok a ∧ (w.commit s).storage = (v.commit s).storage := by
  obtain ⟨d, hb⟩ := yields_of_commit h
  obtain ⟨a, d', ha, hd⟩ := hw _ _ _ hb
  refine ⟨a, ?_⟩
  rw [commit_of_ok hb, commit_of_ok ha]
  exact ⟨rfl, hd.symm⟩

theorem Yields.commit {w : Work α} {s : Storage} {a : α} (hw : w.Yields ⟨s, []⟩ a) :
    (w.commit s).result = .ok a := by
  obtain ⟨d, hw⟩ := hw
  rw [commit_of_ok hw]

theorem Fails.commit {w : Work α} {s : Storage} {e : FeeError} (hw : w.Fails ⟨s, []⟩ e) :
    (w.commit s).result = .error e := by
  obtain ⟨d, hw⟩ := hw
  rw [commit_of_error hw]

end TransferFees.Work
