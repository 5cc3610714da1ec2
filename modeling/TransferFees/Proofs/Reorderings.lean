import Mathlib.Data.List.FinRange
import Mathlib.Data.List.Sort
import Mathlib.Data.Fintype.Basic
import Mathlib.Tactic.FinCases
import TransferFees.Proofs.Phases
import TransferFees.Proofs.Sessions
import TransferFees.Proofs.Successions

/-!
# Changes in another order

A change to a fee state that is there is about the percent or about one token (`Change.subject`). It
reads and writes no more of the state than that, and the owner, who never changes. So changes about
different things do not notice each other, whether they succeed or fail, and only the order of those
about the same thing matters (`Reordering.run_alike`).

The proof compares states by what they hold about one subject (`FeeState.AlikeAt`). A change about
another subject leaves that as it was (`FeeState.follow_alikeAt`), and a change about this one comes
to the same on states that are alike (`FeeState.AlikeAt.follow`). Hence what a run leaves about a
subject depends on the changes about it alone (`FeeState.AlikeAt.followAll`), and these are the same
in both runs, before each change and in the end (`Reordering.filter_take`).
-/

namespace TransferFees

/-! ## What a change is about -/

/-- The token that a change is about; without one it is about the percent. -/
def Change.subject : Change → Option String
  | .addToken id => some id
  | .removeToken id => some id
  | _ => none

namespace FeeState

/-- The state after a change, which may fail and then leaves it as it is. -/
def follow (s : FeeState) (c : Change) : FeeState :=
  match c.plan (some s) with
  | .ok plan => plan.next
  | .error _ => s

/-- The state after several changes. -/
def followAll (s : FeeState) (cs : List Change) : FeeState := cs.foldl follow s

/-- What a change to the state is answered with. -/
def tells (s : FeeState) (c : Change) : Except FeeError Answer :=
  c.plan (some s) >>= fun plan => c.answer plan.next

/-- The two states have the same owner and agree in what they hold about the subject. -/
def AlikeAt (k : Option String) (s s' : FeeState) : Prop :=
  s.owner = s'.owner ∧
    match k with
    | none => s.percent = s'.percent
    | some id => id ∈ s.tokens ↔ id ∈ s'.tokens

variable {k : Option String} {s s' s'' : FeeState} {c : Change}

theorem AlikeAt.refl (k : Option String) (s : FeeState) : AlikeAt k s s := by
  refine ⟨rfl, ?_⟩
  cases k <;> rfl

theorem AlikeAt.symm (h : AlikeAt k s s') : AlikeAt k s' s := by
  refine ⟨h.1.symm, ?_⟩
  cases k with
  | none => exact h.2.symm
  | some id => exact h.2.symm

/-- To be alike at a subject is an equivalence (with `refl` and `symm`). -/
theorem AlikeAt.trans (h : AlikeAt k s s') (h' : AlikeAt k s' s'') : AlikeAt k s s'' := by
  refine ⟨h.1.trans h'.1, ?_⟩
  cases k with
  | none => exact h.2.trans h'.2
  | some id => exact h.2.trans h'.2

/-- States that are alike at every subject are the same. -/
theorem eq_of_alikeAt (h : ∀ k, AlikeAt k s s') : s = s' := by
  obtain ⟨owner, percent, tokens⟩ := s
  obtain ⟨owner', percent', tokens'⟩ := s'
  obtain rfl : owner = owner' := (h none).1
  obtain rfl : percent = percent' := (h none).2
  obtain rfl : tokens = tokens' := TokenSet.ext_mem fun id => (h (some id)).2
  rfl

theorem follow_of_ok {plan : Plan} (h : c.plan (some s) = .ok plan) : s.follow c = plan.next := by
  rw [follow, h]

theorem follow_of_error {e : FeeError} (h : c.plan (some s) = .error e) : s.follow c = s := by
  rw [follow, h]

/-- **A change leaves everything alone that it is not about.** -/
theorem follow_alikeAt (h : c.subject ≠ k) (s : FeeState) : AlikeAt k (s.follow c) s := by
  cases hplan : c.plan (some s) with
  | error e =>
      rw [follow_of_error hplan]
      exact .refl k s
  | ok plan =>
      rw [follow_of_ok hplan]
      cases Change.planned hplan with
      | setPercent hcaller hparse =>
          cases k with
          | none => exact absurd rfl h
          | some id => exact ⟨rfl, Iff.rfl⟩
      | @addToken id hid hnew =>
          cases k with
          | none => exact ⟨rfl, rfl⟩
          | some other =>
              have hne : other ≠ id := fun heq => h (congrArg some heq.symm)
              exact ⟨rfl, by simp [TokenSet.mem_insert, hne]⟩
      | @removeToken id hid =>
          cases k with
          | none => exact ⟨rfl, rfl⟩
          | some other =>
              have hne : other ≠ id := fun heq => h (congrArg some heq.symm)
              exact ⟨rfl, by simp [TokenSet.mem_erase, hne]⟩

section
variable {next? : FeeState → Except FeeError FeeState} {event : FeeState → Event}
  (hplan : ∀ t, c.plan (some t) = (next? t).map fun next => ⟨event next, next⟩)
include hplan

theorem AlikeAt.follow_of_error (h : AlikeAt k s s') {e : FeeError} (hs : next? s = .error e)
    (hs' : next? s' = .error e) :
    c.Agree (s.tells c) (s'.tells c) ∧ AlikeAt k (s.follow c) (s'.follow c) := by
  simp only [follow, tells, hplan, hs, hs', Except.map]
  exact ⟨.same c _, h⟩

theorem AlikeAt.follow_of_ok {next next' : FeeState} (h : AlikeAt k next next')
    (hs : next? s = .ok next) (hs' : next? s' = .ok next')
    (hagree : c.Agree (c.answer next) (c.answer next')) :
    c.Agree (s.tells c) (s'.tells c) ∧ AlikeAt k (s.follow c) (s'.follow c) := by
  simp only [follow, tells, hplan, hs, hs', Except.map]
  exact ⟨hagree, h⟩

end

/-- **A change comes to the same on states that are alike at what it is about.** It fails on both,
with the same error, or succeeds on both, and only the tokens that it tells may differ. -/
theorem AlikeAt.follow (h : AlikeAt c.subject s s') :
    c.Agree (s.tells c) (s'.tells c) ∧ AlikeAt c.subject (s.follow c) (s'.follow c) := by
  cases c with
  | establish caller tokens standard => exact ⟨.same _ _, h⟩
  | setPercent caller text =>
      have hplan := fun t => Change.plan_setPercent t caller text
      by_cases hcaller : caller = s.owner
      · have hcaller' : caller = s'.owner := hcaller.trans h.1
        cases hparse : Percent.parse text with
        | error reason =>
            exact h.follow_of_error hplan (setPercent_of_parse_error hcaller hparse)
              (setPercent_of_parse_error hcaller' hparse)
        | ok p =>
            have hnext : AlikeAt none { s with percent := p } { s' with percent := p } := ⟨h.1, rfl⟩
            exact hnext.follow_of_ok hplan (setPercent_eq_ok_iff.2 ⟨hcaller, p, hparse, rfl⟩)
              (setPercent_eq_ok_iff.2 ⟨hcaller', p, hparse, rfl⟩) (.same _ _)
      · exact h.follow_of_error hplan (setPercent_of_ne_owner hcaller text)
          (setPercent_of_ne_owner (h.1 ▸ hcaller) text)
  | addToken id =>
      have hplan := fun t => Change.plan_addToken t id
      have hmem : id ∈ s.tokens ↔ id ∈ s'.tokens := h.2
      cases hid : checkAccount id with
      | error e =>
          exact h.follow_of_error hplan (addToken_of_check_error hid) (addToken_of_check_error hid)
      | ok other =>
          have hvalid := (checkAccount_eq_ok_iff.1 hid).2
          by_cases hold : id ∈ s.tokens
          · exact h.follow_of_error hplan (addToken_of_mem hvalid hold)
              (addToken_of_mem hvalid (hmem.1 hold))
          · have hnext : AlikeAt (some id) { s with tokens := s.tokens.insert id }
                { s' with tokens := s'.tokens.insert id } := ⟨h.1, by simp [TokenSet.mem_insert]⟩
            exact hnext.follow_of_ok hplan (addToken_eq_ok_iff.2 ⟨hvalid, hold, rfl⟩)
              (addToken_eq_ok_iff.2 ⟨hvalid, mt hmem.2 hold, rfl⟩) (.added id _ _)
  | removeToken id =>
      have hplan := fun t => Change.plan_removeToken t id
      have hmem : id ∈ s.tokens ↔ id ∈ s'.tokens := h.2
      by_cases hold : id ∈ s.tokens
      · have hnext : AlikeAt (some id) { s with tokens := s.tokens.erase id }
            { s' with tokens := s'.tokens.erase id } := ⟨h.1, by simp [TokenSet.mem_erase]⟩
        exact hnext.follow_of_ok hplan (removeToken_eq_ok_iff.2 ⟨hold, rfl⟩)
          (removeToken_eq_ok_iff.2 ⟨hmem.1 hold, rfl⟩) (.removed id _ _)
      · exact h.follow_of_error hplan (removeToken_of_not_mem hold)
          (removeToken_of_not_mem (mt hmem.2 hold))

/-- What changes leave about a subject depends on those about this subject alone. The induction is
on the changes, on two states that are alike there. -/
theorem AlikeAt.followAll (h : AlikeAt k s s') (cs : List Change) :
    AlikeAt k (s.followAll cs) (s'.followAll (cs.filter (·.subject = k))) := by
  induction cs generalizing s s' with
  | nil => exact h
  | cons c rest ih =>
      by_cases hc : c.subject = k
      · subst hc
        rw [List.filter_cons_of_pos (by simp)]
        exact ih h.follow.2
      · rw [List.filter_cons_of_neg (by simp [hc])]
        exact ih ((follow_alikeAt hc s).trans h)

end FeeState

/-! ## Positions -/

/-- The changes `cs` in another order: `place` tells where each of them stands in `ds`. Those about
the same thing stand in the same order. -/
structure Change.Reordering (cs ds : List Change) where
  place : Fin cs.length ≃ Fin ds.length
  moved : ∀ i, ds.get (place i) = cs.get i
  keeps : ∀ i j, i < j → (cs.get i).subject = (cs.get j).subject → place i < place j

/-- The changes of a kind in front of a position, by their positions. -/
theorem filter_take_eq_map {α : Type} (p : α → Bool) (l : List α) (n : Nat) :
    (l.take n).filter p =
      ((List.finRange l.length).filter fun i => decide (i.val < n) && p (l.get i)).map l.get := by
  induction l generalizing n with
  | nil => simp
  | cons a rest ih =>
      cases n with
      | zero => simp
      | succ n =>
          have hcons : List.finRange (a :: rest).length =
              0 :: (List.finRange rest.length).map Fin.succ := List.finRange_succ
          have hrest : (((List.finRange rest.length).map Fin.succ).filter fun i =>
              decide (i.val < n + 1) && p ((a :: rest).get i)).map (a :: rest).get =
              (rest.take n).filter p := by
            rw [ih, List.filter_map, List.map_map]
            simp [Function.comp_def]
          rw [List.take_succ_cons, hcons, List.filter_cons, List.filter_cons]
          by_cases ha : p a = true
          · rw [if_pos ha, if_pos (by simpa using ha), List.map_cons, hrest]
            rfl
          · rw [if_neg ha, if_neg (by simpa using ha), hrest]

namespace Change.Reordering

variable {cs ds : List Change}

/-- Where the same changes about a subject stand in front of two positions, they stand in the same
order. -/
theorem filter_take (r : Reordering cs ds) {k : Option String} {n m : Nat}
    (h : ∀ i, (cs.get i).subject = k → (i.val < n ↔ (r.place i).val < m)) :
    (cs.take n).filter (·.subject = k) = (ds.take m).filter (·.subject = k) := by
  let before := (List.finRange cs.length).filter fun i =>
    decide (i.val < n) && decide ((cs.get i).subject = k)
  let before' := (List.finRange ds.length).filter fun j =>
    decide (j.val < m) && decide ((ds.get j).subject = k)
  have hbefore : ∀ i ∈ before, i.val < n ∧ (cs.get i).subject = k := by simp [before]
  have hsorted : (before.map r.place).Pairwise (· < ·) := by
    rw [List.pairwise_map]
    refine ((List.pairwise_lt_finRange _).filter _).imp_of_mem fun {i j} hi hj hij => ?_
    exact r.keeps i j hij ((hbefore i hi).2.trans (hbefore j hj).2.symm)
  have hsorted' : before'.Pairwise (· < ·) := (List.pairwise_lt_finRange _).filter _
  have hsame : before.map r.place = before' := by
    refine hsorted.eq_of_mem_iff hsorted' fun j => ?_
    -- every position of `ds` is the place of a position of `cs`
    obtain ⟨i, rfl⟩ := r.place.surjective j
    simp only [before, before', List.mem_map_of_injective r.place.injective, List.mem_filter,
      List.mem_finRange, true_and, Bool.and_eq_true, decide_eq_true_eq, r.moved]
    exact and_congr_left fun hi => h i hi
  calc (cs.take n).filter (·.subject = k)
      = before.map cs.get := filter_take_eq_map _ cs n
    _ = before.map (ds.get ∘ r.place) := List.map_congr_left fun i _ => (r.moved i).symm
    _ = before'.map ds.get := by rw [← List.map_map, hsame]
    _ = (ds.take m).filter (·.subject = k) :=
        (filter_take_eq_map (fun c => decide (c.subject = k)) ds m).symm

/-- In front of a change stand the same changes about the same thing, in both orders. -/
theorem filter_take_place (r : Reordering cs ds) (i : Fin cs.length) :
    (cs.take i).filter (·.subject = (cs.get i).subject) =
      (ds.take (r.place i)).filter (·.subject = (cs.get i).subject) := by
  refine r.filter_take fun j hj => ⟨fun hji => r.keeps j i hji hj, fun hji => ?_⟩
  rcases lt_trichotomy j i with hlt | rfl | hgt
  · exact hlt
  · exact absurd hji (lt_irrefl _)
  · exact absurd (r.keeps i j hgt hj.symm) (not_lt_of_gt hji)

theorem filter_eq (r : Reordering cs ds) (k : Option String) :
    cs.filter (·.subject = k) = ds.filter (·.subject = k) := by
  have h := r.filter_take (k := k) (n := cs.length) (m := ds.length) fun i _ =>
    iff_of_true i.isLt (r.place i).isLt
  rwa [List.take_length, List.take_length] at h

end Change.Reordering

/-! ## Runs -/

namespace Change

variable {c : Change} {cs ds : List Change} {s : Storage} {state : FeeState}

/-- What is stored when the changes have been run one after the other, each in a session of its
own. -/
def storageAfter (cs : List Change) (s : Storage) : Storage := Step.storageAfter (cs.map step) s

/-- What the change at a position is answered with when the changes are run like that. -/
def resultAt (cs : List Change) (s : Storage) (i : Fin cs.length) : Except FeeError Answer :=
  ((cs.get i).step.run (storageAfter (cs.take i) s)).result

/-- There is an answer to tell of every change that leads to a valid state. -/
theorem exists_answer (hstate : state.Valid) (c : Change) : ∃ a, c.answer state = .ok a := by
  cases c with
  | setPercent caller text =>
      obtain ⟨written, hwritten⟩ := hstate.percentText
      exact ⟨.text written, by rw [answer, hwritten]; rfl⟩
  | _ => exact ⟨_, rfl⟩

/-- Where a fee state is stored, a change is answered and stored as the state tells. -/
theorem run_of_holds (hs : s.Holds state) (c : Change) :
    (c.step.run s).result = state.tells c ∧ (c.step.run s).storage.Holds (state.follow c) := by
  obtain ⟨hstate, rfl⟩ := hs
  obtain ⟨hresult, hstorage⟩ := commit_step (t := state.tables) (c := c)
  have hnow : c.writtenNow state.tables = c.plan (some state) >>= c.written state.tables := by
    rw [writtenNow, hstate.load]
    rfl
  rw [hresult, hstorage, hnow, FeeState.tells]
  cases hplan : c.plan (some state) with
  | error e =>
      rw [FeeState.follow_of_error hplan]
      exact ⟨rfl, hstate, rfl⟩
  | ok plan =>
      have hp := planned hplan
      have hnext := hp.valid hstate
      obtain ⟨a, ha⟩ := exists_answer hnext c
      have hwritten : c.written state.tables plan = .ok (plan.event, a) := by
        simp only [written, hp.storedIn, hp.stateAfter, ha, bind, Except.bind, pure, Except.pure]
      rw [FeeState.follow_of_ok hplan]
      simp only [bind, Except.bind, hwritten, ha, Except.map, true_and]
      exact ⟨hnext, congrArg Storage.ready hp.replay⟩

theorem holds_storageAfter (hs : s.Holds state) (cs : List Change) :
    (storageAfter cs s).Holds (state.followAll cs) := by
  induction cs generalizing s state with
  | nil => exact hs
  | cons c rest ih => exact ih (run_of_holds hs c).2

/-- Where no fee state is stored, nothing but creating one changes that. -/
theorem storageAfter_of_not_holds (hs : ∀ state, ¬s.Holds state)
    (hcs : ∀ c ∈ cs, c.isEstablish = false) : storageAfter cs s = s := by
  induction cs with
  | nil => rfl
  | cons c rest ih =>
      obtain ⟨hc, hrest⟩ := List.forall_mem_cons.1 hcs
      have hraw : c.step.isRaw = false := by cases c <;> rfl
      have hchange : c.step.change? = some c := by cases c <;> rfl
      have hfirst : (c.step.run s).storage = s := by
        rcases c.step.effect hraw s with hsame | ⟨-, c', hc', hmade⟩
        · exact hsame
        · rw [hchange] at hc'
          cases hc'
          obtain ⟨state, hstate⟩ := hmade.exists_held hc
          exact absurd hstate (hs state)
      have hstep : storageAfter (c :: rest) s = storageAfter rest (c.step.run s).storage := rfl
      rw [hstep, hfirst, ih hrest]

/-- **Changes about different things may be swapped.** In every order that keeps those about the
same thing in order, each change comes to the same, and the same is stored in the end. -/
theorem Reordering.run_alike (r : Reordering cs ds) (hcs : ∀ c ∈ cs, c.isEstablish = false)
    (s : Storage) :
    (∀ i, (cs.get i).Agree (resultAt cs s i) (resultAt ds s (r.place i))) ∧
      storageAfter cs s = storageAfter ds s := by
  by_cases hs : ∃ state, s.Holds state
  · obtain ⟨state, hstate⟩ := hs
    constructor
    · intro i
      have hbefore := holds_storageAfter hstate (cs.take i)
      have hbefore' := holds_storageAfter hstate (ds.take (r.place i))
      rw [resultAt, resultAt, (run_of_holds hbefore _).1, (run_of_holds hbefore' _).1, r.moved]
      have halike := FeeState.AlikeAt.refl (cs.get i).subject state
      have h := halike.followAll (cs.take i)
      rw [r.filter_take_place i] at h
      exact (h.trans (halike.followAll (ds.take (r.place i))).symm).follow.1
    · have hsame : state.followAll cs = state.followAll ds := by
        refine FeeState.eq_of_alikeAt fun k => ?_
        have h := (FeeState.AlikeAt.refl k state).followAll cs
        rw [r.filter_eq k] at h
        exact h.trans ((FeeState.AlikeAt.refl k state).followAll ds).symm
      rw [(holds_storageAfter hstate cs).2, (holds_storageAfter hstate ds).2, hsame]
  · have hs : ∀ state, ¬s.Holds state := not_exists.1 hs
    have hds : ∀ c ∈ ds, c.isEstablish = false := by
      intro c hc
      obtain ⟨j, rfl⟩ := List.get_of_mem hc
      obtain ⟨i, rfl⟩ := r.place.surjective j
      rw [r.moved]
      exact hcs _ (List.get_mem cs i)
    have hstill : ∀ n, storageAfter (cs.take n) s = s := fun n =>
      storageAfter_of_not_holds hs fun c hc => hcs c (List.mem_of_mem_take hc)
    have hstill' : ∀ n, storageAfter (ds.take n) s = s := fun n =>
      storageAfter_of_not_holds hs fun c hc => hds c (List.mem_of_mem_take hc)
    constructor
    · intro i
      rw [resultAt, resultAt, hstill, hstill', r.moved]
      exact .same _ _
    · rw [storageAfter_of_not_holds hs hcs, storageAfter_of_not_holds hs hds]

/-- The percent may be set first; the second of the two additions is refused in either order. -/
theorem Reordering.run_alike_percent_first :
    let add : Change := .addToken "usdt.near"
    let set : Change := .setPercent "owner.near" "6"
    let s : Storage := .ready ⟨some ⟨"owner.near", 500⟩, .empty⟩
    (∀ c ∈ [add, set, add], c.isEstablish = false) ∧
      ∃ r : Reordering [add, set, add] [set, add, add],
        (∀ i, ([add, set, add].get i).Agree (resultAt [add, set, add] s i)
          (resultAt [set, add, add] s (r.place i))) ∧
        storageAfter [add, set, add] s = storageAfter [set, add, add] s := by
  intro add set s
  have hcs : ∀ c ∈ [add, set, add], c.isEstablish = false := by simp [add, set, isEstablish]
  have hmoved : ∀ i : Fin 3, [set, add, add].get (Equiv.swap 0 1 i) = [add, set, add].get i := by
    intro i
    fin_cases i <;> rfl
  have hkeeps : ∀ i j : Fin 3, i < j →
      ([add, set, add].get i).subject = ([add, set, add].get j).subject →
        Equiv.swap (0 : Fin 3) 1 i < Equiv.swap (0 : Fin 3) 1 j := by decide
  let r : Reordering [add, set, add] [set, add, add] := ⟨Equiv.swap 0 1, hmoved, hkeeps⟩
  exact ⟨hcs, r, r.run_alike hcs s⟩

end Change

end TransferFees
