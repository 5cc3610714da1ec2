/-!
# Results of computations that may fail

When a computation of several parts succeeds, all its parts do; when it fails, the first part that
fails gives the error.
-/

namespace Except

variable {ε ε' α β : Type} {x : Except ε α}

/-- A computation that goes on after another succeeds if both do, the second with what the first
gave. -/
theorem bind_eq_ok_iff {f : α → Except ε β} {b : β} :
    (x >>= f) = .ok b ↔ ∃ a, x = .ok a ∧ f a = .ok b := by
  constructor
  · intro h
    cases x with
    | ok a => exact ⟨a, rfl, h⟩
    | error e => cases h
  · rintro ⟨a, rfl, h⟩
    exact h

/-- The error is that of the first computation, or the first succeeds and it is that of the second.
-/
theorem bind_eq_error_iff {f : α → Except ε β} {e : ε} :
    (x >>= f) = .error e ↔ x = .error e ∨ ∃ a, x = .ok a ∧ f a = .error e := by
  constructor
  · intro h
    cases x with
    | ok a => exact .inr ⟨a, rfl, h⟩
    | error e' =>
        cases h
        exact .inl rfl
  · rintro (rfl | ⟨a, rfl, h⟩)
    · rfl
    · exact h

/-- Success is neither made nor lost by a function of the value. -/
theorem map_eq_ok_iff {f : α → β} {b : β} : x.map f = .ok b ↔ ∃ a, x = .ok a ∧ f a = b := by
  constructor
  · intro h
    cases x with
    | ok a =>
        cases h
        exact ⟨a, rfl, rfl⟩
    | error e => cases h
  · rintro ⟨a, rfl, rfl⟩
    rfl

/-- To name errors differently does not touch what succeeds. -/
theorem mapError_eq_ok_iff {f : ε → ε'} {a : α} : x.mapError f = .ok a ↔ x = .ok a := by
  constructor
  · intro h
    cases x with
    | ok a' =>
        cases h
        rfl
    | error e => cases h
  · rintro rfl
    rfl

/-- An error under its new name comes from one under its old name. -/
theorem mapError_eq_error_iff {f : ε → ε'} {e' : ε'} :
    x.mapError f = .error e' ↔ ∃ e, x = .error e ∧ f e = e' := by
  constructor
  · intro h
    cases x with
    | ok a => cases h
    | error e =>
        cases h
        exact ⟨e, rfl, rfl⟩
  · rintro ⟨e, rfl, rfl⟩
    rfl

/-- A computation that succeeds on every item of a list succeeds on the list. -/
theorem mapM_eq_ok {f : α → Except ε β} {g : α → β} {items : List α}
    (h : ∀ a ∈ items, f a = .ok (g a)) : items.mapM f = .ok (items.map g) := by
  induction items with
  | nil => rfl
  | cons a rest ih =>
      obtain ⟨ha, hrest⟩ := List.forall_mem_cons.1 h
      rw [List.mapM_cons, ha, ih hrest]
      rfl

end Except
