import Mathlib.Data.List.Forall2
import Mathlib.Logic.Function.Basic
import TransferFees.Proofs.Phases
import TransferFees.Proofs.Sessions
import TransferFees.Proofs.Successions

/-!
# Changes that are under way together

Any number of changes, each with a read phase and a write phase, and the phases in any order: a
schedule names the change whose turn it is. A phase sees what is committed, and nothing else of the
others. A change is through when it has written, or when it has failed to read.

However the phases are mixed, all is as if the changes had been made one after the other, each at
the moment when it came through (`Interleaving.run_serializable`). The invariant is `Serial`; that
plans keep their ground while others write (`Change.Grounded.later`) carries it.
-/

namespace TransferFees.Interleaving

/-- How far a change has got. -/
inductive Phase where
  /-- It has not begun. -/
  | waiting
  /-- It has read, and has a plan to carry out. -/
  | planned (plan : Plan)
  /-- It is through. -/
  | through

/-- A moment on the way. -/
structure Moment (ι : Type) where
  /-- What is committed. -/
  storage : Storage
  /-- How far each change has got. -/
  phase : ι → Phase
  /-- The changes that are through, in the order in which they came through, and what each gave. -/
  record : List (ι × Except FeeError Answer)

section
variable {ι : Type}

/-- The moment before any change has begun. -/
def start (s : Storage) : Moment ι := ⟨s, fun _ => .waiting, []⟩

/-- The steps of the changes that are through. -/
def Moment.steps (changes : ι → Change) (m : Moment ι) : List Step :=
  m.record.map fun entry => (changes entry.1).step

/-- The changes that are through and have succeeded. -/
def Moment.granted (changes : ι → Change) (m : Moment ι) : List Change :=
  (m.record.filter fun entry => Session.succeeded entry.2).map fun entry => changes entry.1

end

section
variable {ι : Type} [DecidableEq ι]

/-- The moment when a change has come through. -/
def Moment.close (m : Moment ι) (i : ι) (r : Except FeeError Answer) (s : Storage) : Moment ι :=
  ⟨s, Function.update m.phase i .through, m.record ++ [(i, r)]⟩

/-- The moment when a change has read, and has a plan. -/
def Moment.keep (m : Moment ι) (i : ι) (plan : Plan) : Moment ι :=
  { m with phase := Function.update m.phase i (.planned plan) }

/-- The turn of one change: it goes through its next phase, in a session of its own. What it reads
is kept until its write phase; if it fails to read there is none. -/
def turn (changes : ι → Change) (m : Moment ι) (i : ι) : Moment ι :=
  match m.phase i with
  | .waiting =>
    let outcome := (changes i).read.commit m.storage
    match outcome.result with
    | .ok plan => m.keep i plan
    | .error e => m.close i (.error e) outcome.storage
  | .planned plan =>
    let outcome := ((changes i).write plan).commit m.storage
    m.close i outcome.result outcome.storage
  | .through => m

/-- The moment after all turns of a schedule. -/
def run (changes : ι → Change) (schedule : List ι) (s : Storage) : Moment ι :=
  schedule.foldl (turn changes) (start s)

/-! ## Getting through -/

/-- How many turns a change still takes at most. -/
def Phase.turnsLeft : Phase → Nat
  | .waiting => 2
  | .planned _ => 1
  | .through => 0

variable {changes : ι → Change} {m : Moment ι} {i j : ι} {s : Storage}

theorem phase_turn_of_ne (h : j ≠ i) : (turn changes m i).phase j = m.phase j := by
  unfold turn
  split
  · dsimp only
    split
    · exact Function.update_of_ne h _ _
    · exact Function.update_of_ne h _ _
  · exact Function.update_of_ne h _ _
  · rfl

/-- A turn uses one up, if there are any left. -/
theorem turnsLeft_turn (changes : ι → Change) (m : Moment ι) (i : ι) :
    ((turn changes m i).phase i).turnsLeft ≤ (m.phase i).turnsLeft - 1 := by
  unfold turn
  split
  · rename_i hphase
    dsimp only
    split <;> simp [hphase, Moment.keep, Moment.close, Phase.turnsLeft]
  · simp [Moment.close, Phase.turnsLeft]
  · rename_i hphase
    simp [hphase, Phase.turnsLeft]

/-- The induction is on the schedule: a change comes closer to its end at each of its turns, and at
no other. -/
theorem phase_of_count (schedule : List ι) (m : Moment ι) (i : ι)
    (h : (m.phase i).turnsLeft ≤ schedule.count i) :
    (schedule.foldl (turn changes) m).phase i = .through := by
  induction schedule generalizing m with
  | nil =>
      cases hphase : m.phase i with
      | through => exact hphase
      | waiting => simp [hphase, Phase.turnsLeft] at h
      | planned plan => simp [hphase, Phase.turnsLeft] at h
  | cons j rest ih =>
      refine ih (turn changes m j) ?_
      by_cases hj : j = i
      · subst hj
        have hturn := turnsLeft_turn changes m j
        rw [List.count_cons_self] at h
        omega
      · rw [phase_turn_of_ne (Ne.symm hj)]
        rwa [List.count_cons_of_ne hj] at h

/-! ## As if one after the other -/

/-- What holds at every moment. What is through has come to what it comes to one after the other,
and every plan that is not carried out yet has its ground. -/
structure Serial (changes : ι → Change) (s : Storage) (m : Moment ι) : Prop where
  storage : m.storage = Step.storageAfter (m.steps changes) s
  results : List.Forall₂ (fun entry alone => (changes entry.1).Agree entry.2 alone.1) m.record
    (Step.runEach (m.steps changes) s)
  made : Change.MadeAll s (m.granted changes) m.storage
  grounded : ∀ i plan, m.phase i = .planned plan →
    ∃ t seen, m.storage = .ready t ∧ t.load = .ok seen ∧ (changes i).Grounded seen plan
  through : ∀ i, m.phase i = .through ↔ i ∈ m.record.map Prod.fst
  nodup : (m.record.map Prod.fst).Nodup

omit [DecidableEq ι] in
theorem serial_start : Serial changes s (start s) where
  storage := rfl
  results := .nil
  made := .nil s
  grounded := nofun
  through := fun i => by simp [start]
  nodup := .nil

/-- A plan has its ground also after another change was made. -/
theorem grounded_of_made {c c' : Change} {plan : Plan} {t : Tables} {seen : Option FeeState}
    {s' : Storage} (hload : t.load = .ok seen) (h : c.Grounded seen plan)
    (hmade : c'.Made (.ready t) s') :
    ∃ t' seen', s' = .ready t' ∧ t'.load = .ok seen' ∧ c.Grounded seen' plan := by
  cases seen with
  | none =>
      obtain ⟨next, hnext, rfl⟩ := hmade.exists_holds
      exact ⟨_, some next, rfl, hnext.load, h.later nofun⟩
  | some state =>
      obtain ⟨rfl, hstate⟩ := Tables.load_eq_some_iff.1 hload
      obtain ⟨plan', hplanned, hnext, rfl⟩ := hmade.planned ⟨hstate, rfl⟩
      have howner : state.owner = plan'.next.owner := by cases hplanned <;> rfl
      refine ⟨_, some plan'.next, rfl, hnext.load, h.later ?_⟩
      rintro _ ⟨⟩
      exact howner

/-- **A change gets through**: it is put behind those that were through before it, as a step of its
own that runs where they have ended. -/
theorem Serial.close {r : Except FeeError Answer} {s' : Storage} (h : Serial changes s m)
    (hi : m.phase i ≠ .through) (hsettles : (changes i).Settles m.storage r s') :
    Serial changes s (m.close i r s') := by
  have hsteps : (m.close i r s').steps changes = m.steps changes ++ [(changes i).step] := by
    simp [Moment.steps, Moment.close]
  have hnew : i ∉ m.record.map Prod.fst := fun hmem => hi ((h.through i).2 hmem)
  constructor
  case storage =>
    rw [hsteps, Step.storageAfter_append, ← h.storage]
    exact hsettles.storage
  case results =>
    rw [hsteps, Step.runEach_append, ← h.storage]
    exact List.rel_append h.results (.cons hsettles.agree .nil)
  case made =>
    rcases hsettles.effect with ⟨⟨e, rfl⟩, rfl⟩ | ⟨⟨a, rfl⟩, hmade⟩
    · simpa [Moment.granted, Moment.close, Session.succeeded] using h.made
    · have hgranted :
          (m.close i (.ok a) s').granted changes = m.granted changes ++ [changes i] := by
        simp [Moment.granted, Moment.close, Session.succeeded]
      rw [hgranted]
      exact h.made.append (.cons hmade (.nil s'))
  case grounded =>
    intro j plan hj
    have hne : j ≠ i := by
      rintro rfl
      simp [Moment.close] at hj
    have hplanned : m.phase j = .planned plan := by
      simpa [Moment.close, Function.update_of_ne hne] using hj
    obtain ⟨t, seen, ht, hload, hgrounded⟩ := h.grounded j plan hplanned
    rcases hsettles.effect with ⟨-, rfl⟩ | ⟨-, hmade⟩
    · exact ⟨t, seen, ht, hload, hgrounded⟩
    · rw [ht] at hmade
      exact grounded_of_made hload hgrounded hmade
  case through =>
    intro j
    by_cases hj : j = i
    · subst hj
      simp [Moment.close]
    · simp [Moment.close, hj, h.through j]
  case nodup =>
    have hrecord : (m.close i r s').record.map Prod.fst = m.record.map Prod.fst ++ [i] := by
      simp [Moment.close]
    rw [hrecord, List.nodup_append]
    refine ⟨h.nodup, by simp, ?_⟩
    simp only [List.mem_singleton, forall_eq]
    rintro j hj rfl
    exact hnew hj

/-- **A change has read**: its plan is grounded in what is stored at this moment, and nothing else
has changed. -/
theorem Serial.keep {plan : Plan} (h : Serial changes s m) (hi : m.phase i ≠ .through)
    (hplan : ((changes i).read.commit m.storage).result = .ok plan) :
    Serial changes s (m.keep i plan) where
  storage := h.storage
  results := h.results
  made := h.made
  grounded := by
    intro j plan' hj
    by_cases hji : j = i
    · subst hji
      obtain rfl : plan = plan' := by simpa [Moment.keep] using hj
      exact Change.grounded_of_read hplan
    · exact h.grounded j plan' (by simpa [Moment.keep, Function.update_of_ne hji] using hj)
  through := by
    intro j
    by_cases hji : j = i
    · subst hji
      simpa [Moment.keep] using (h.through j).not.1 hi
    · simpa [Moment.keep, Function.update_of_ne hji] using h.through j
  nodup := h.nodup

/-- **One turn keeps the invariant.** -/
theorem Serial.turn (h : Serial changes s m) (i : ι) : Serial changes s (turn changes m i) := by
  unfold Interleaving.turn
  split
  case h_1 hphase =>
    have hi : m.phase i ≠ .through := by simp [hphase]
    dsimp only
    split
    · rename_i plan hplan
      exact h.keep hi hplan
    · rename_i e he
      rw [Work.storage_of_commit_error he]
      exact h.close hi (Change.settles_of_read_error he)
  case h_2 plan hphase =>
    have hi : m.phase i ≠ .through := by simp [hphase]
    obtain ⟨t, seen, ht, hload, hgrounded⟩ := h.grounded i plan hphase
    have hsettles := Change.settles_of_write hload hgrounded
    rw [← ht] at hsettles
    exact h.close hi hsettles
  case h_3 => exact h

/-- The invariant holds along every schedule, by induction on the turns. -/
theorem serial_run (changes : ι → Change) (schedule : List ι) (s : Storage) :
    Serial changes s (run changes schedule s) :=
  List.foldlRecOn schedule (turn changes) serial_start fun _ h i _ => h.turn i

/-- **Changes under way together are serializable.** Every change that has had two turns is through.
What is stored, and what every change has given, is what comes of making the changes one after the
other in the order in which they came through; only the tokens that are listed after a token was
added or removed may be others. The fee state is created at most once, and a token that was added
(removed) is not added (removed) again before it was removed (added). This holds whatever is stored
at the start. -/
theorem run_serializable (changes : ι → Change) (schedule : List ι) (s : Storage) :
    let m := run changes schedule s
    (∀ i, 2 ≤ schedule.count i → i ∈ m.record.map Prod.fst) ∧
      (m.record.map Prod.fst).Nodup ∧
      m.storage = Step.storageAfter (m.steps changes) s ∧
      List.Forall₂ (fun entry alone => (changes entry.1).Agree entry.2 alone.1) m.record
        (Step.runEach (m.steps changes) s) ∧
      (m.granted changes).countP Change.isEstablish ≤ 1 ∧
      ∀ id before between after,
        (m.granted changes = before ++ .addToken id :: between ++ .addToken id :: after →
          .removeToken id ∈ between) ∧
        (m.granted changes = before ++ .removeToken id :: between ++ .removeToken id :: after →
          .addToken id ∈ between) := by
  intro m
  have h : Serial changes s m := serial_run changes schedule s
  refine ⟨?_, h.nodup, h.storage, h.results, h.made.countP_isEstablish_le, ?_⟩
  · intro i hi
    exact (h.through i).1 (phase_of_count schedule (start s) i hi)
  · intro id before between after
    constructor
    · intro hgranted
      obtain ⟨d, hd, hleaves⟩ := (hgranted ▸ h.made).alternate
        (Change.leaves?_eq_some_true_iff.2 rfl) (Change.leaves?_eq_some_true_iff.2 rfl)
      exact Change.leaves?_eq_some_false_iff.1 hleaves ▸ hd
    · intro hgranted
      obtain ⟨d, hd, hleaves⟩ := (hgranted ▸ h.made).alternate
        (Change.leaves?_eq_some_false_iff.2 rfl) (Change.leaves?_eq_some_false_iff.2 rfl)
      exact Change.leaves?_eq_some_true_iff.1 hleaves ▸ hd

/-- Both changes have read before either writes, so the second does not list the token of the
first. Both tokens are stored all the same. -/
example :
    let changes : Bool → Change := fun i => .addToken (if i then "dai.near" else "usdt.near")
    let m := run changes [false, true, false, true]
      (.ready (FeeState.tables ⟨"alice.near", 500, .empty⟩))
    m.record = [(false, .ok (.tokens ["usdt.near"])), (true, .ok (.tokens ["dai.near"]))] ∧
      m.storage = .ready ⟨some ⟨"alice.near", 500⟩, .ofList ["dai.near", "usdt.near"]⟩ :=
  ⟨rfl, rfl⟩

end

end TransferFees.Interleaving
