/-!
# Regular patterns

A pattern describes a set of texts by classes of characters, concatenation, choice and
repetition. Two readings of a pattern stand side by side.

* `Matches` is the declarative one: an inductive relation with one rule per way to match.
* `accepts` is the one that runs. It takes the text character by character and keeps the pattern
  of what may still follow (`derivative`); the text is accepted if nothing need follow.

The main statement is `accepts_iff`: both readings agree on every text. The shortened forms
`oneOf` and `followedBy` drop parts that match nothing, which keeps the running pattern small.
-/

namespace TransferFees.Text

/-- A set of texts, built from classes of characters. -/
inductive Pattern where
  /-- No text at all. -/
  | nothing
  /-- The empty text alone. -/
  | empty
  /-- One character of a class. -/
  | char (p : Char → Bool)
  /-- A text of the first pattern, then one of the second. -/
  | seq (a b : Pattern)
  /-- A text of either pattern. -/
  | alt (a b : Pattern)
  /-- Any number of texts of the pattern, one after the other. -/
  | star (a : Pattern)

namespace Pattern

/-- The declarative reading of a pattern. -/
inductive Matches : Pattern → List Char → Prop where
  /-- The empty text. -/
  | empty : Matches .empty []
  /-- A character of the class. -/
  | char {p : Char → Bool} {c : Char} : p c = true → Matches (.char p) [c]
  /-- One text after the other. -/
  | seq {a b : Pattern} {s t : List Char} : Matches a s → Matches b t → Matches (.seq a b) (s ++ t)
  /-- A text of the first choice. -/
  | left {a b : Pattern} {s : List Char} : Matches a s → Matches (.alt a b) s
  /-- A text of the second choice. -/
  | right {a b : Pattern} {s : List Char} : Matches b s → Matches (.alt a b) s
  /-- No repetition. -/
  | done {a : Pattern} : Matches (.star a) []
  /-- One more repetition, in front. -/
  | more {a : Pattern} {s t : List Char} :
      Matches a s → Matches (.star a) t → Matches (.star a) (s ++ t)

/-- One text of the pattern or more. -/
def plus (a : Pattern) : Pattern := .seq a (.star a)

/-- A text of the pattern, or the empty text. -/
def opt (a : Pattern) : Pattern := .alt a .empty

/-- Exactly the character `c`. -/
def lit (c : Char) : Pattern := .char (· == c)

/-- Whether the empty text is in the pattern. -/
def nullable : Pattern → Bool
  | .nothing => false
  | .empty => true
  | .char _ => false
  | .seq a b => a.nullable && b.nullable
  | .alt a b => a.nullable || b.nullable
  | .star _ => true

/-- A choice that drops a side without texts. -/
def oneOf : Pattern → Pattern → Pattern
  | .nothing, b => b
  | a, .nothing => a
  | a, b => .alt a b

/-- A concatenation that is dropped when its first side has no text, and that leaves out a first
side with the empty text alone. -/
def followedBy : Pattern → Pattern → Pattern
  | .nothing, _ => .nothing
  | .empty, b => b
  | a, b => .seq a b

/-- What may follow the character `c` in a text of the pattern. -/
def derivative (c : Char) : Pattern → Pattern
  | .nothing => .nothing
  | .empty => .nothing
  | .char p => if p c then .empty else .nothing
  | .seq a b =>
    if a.nullable then oneOf (followedBy (a.derivative c) b) (b.derivative c)
    else followedBy (a.derivative c) b
  | .alt a b => oneOf (a.derivative c) (b.derivative c)
  | .star a => followedBy (a.derivative c) (.star a)

/-- The running reading of a pattern. -/
def accepts : Pattern → List Char → Bool
  | a, [] => a.nullable
  | a, c :: r => (a.derivative c).accepts r

/-! ## The two readings agree -/

theorem not_matches_nothing {s : List Char} : ¬ Matches .nothing s := nofun

theorem matches_empty_iff {s : List Char} : Matches .empty s ↔ s = [] :=
  ⟨fun h => by cases h; rfl, fun h => h ▸ .empty⟩

theorem matches_char_iff {p : Char → Bool} {s : List Char} :
    Matches (.char p) s ↔ ∃ c, s = [c] ∧ p c = true :=
  ⟨fun h => by cases h with | char h => exact ⟨_, rfl, h⟩, fun ⟨_, hs, h⟩ => hs ▸ .char h⟩

/-- A text of a concatenation is cut in two, at a place that nothing marks. -/
theorem matches_seq_iff {a b : Pattern} {s : List Char} :
    Matches (.seq a b) s ↔ ∃ u v, s = u ++ v ∧ Matches a u ∧ Matches b v :=
  ⟨fun h => by cases h with | seq hu hv => exact ⟨_, _, rfl, hu, hv⟩,
    fun ⟨_, _, hs, hu, hv⟩ => hs ▸ .seq hu hv⟩

theorem matches_alt_iff {a b : Pattern} {s : List Char} :
    Matches (.alt a b) s ↔ Matches a s ∨ Matches b s :=
  ⟨fun h => by cases h with | left h => exact .inl h | right h => exact .inr h,
    fun h => h.elim .left .right⟩

/-- `oneOf` is a choice, whatever it leaves out. -/
theorem matches_oneOf_iff {a b : Pattern} {s : List Char} :
    Matches (oneOf a b) s ↔ Matches a s ∨ Matches b s := by
  unfold oneOf
  split
  · simp [not_matches_nothing]
  · simp [not_matches_nothing]
  · exact matches_alt_iff

/-- `followedBy` is a concatenation, whatever it leaves out. -/
theorem matches_followedBy_iff {a b : Pattern} {s : List Char} :
    Matches (followedBy a b) s ↔ ∃ u v, s = u ++ v ∧ Matches a u ∧ Matches b v := by
  unfold followedBy
  split
  · simp [not_matches_nothing]
  · simp only [matches_empty_iff]
    exact ⟨fun h => ⟨[], s, rfl, rfl, h⟩, by rintro ⟨_, _, rfl, rfl, h⟩; exact h⟩
  · exact matches_seq_iff

/-- The empty text is in a pattern exactly when the pattern is `nullable`. -/
theorem matches_nil_iff {a : Pattern} : Matches a [] ↔ a.nullable = true := by
  induction a with
  | nothing => simp [nullable, not_matches_nothing]
  | empty => simp [nullable, matches_empty_iff]
  | char p => simp [nullable, matches_char_iff]
  | seq a b iha ihb =>
    rw [matches_seq_iff, nullable, Bool.and_eq_true, ← iha, ← ihb]
    constructor
    · rintro ⟨u, v, h, hu, hv⟩
      obtain ⟨rfl, rfl⟩ := List.append_eq_nil_iff.1 h.symm
      exact ⟨hu, hv⟩
    · rintro ⟨hu, hv⟩
      exact ⟨[], [], rfl, hu, hv⟩
  | alt a b iha ihb => rw [matches_alt_iff, nullable, Bool.or_eq_true, iha, ihb]
  | star a _ => exact iff_of_true .done rfl

/-- A repetition that matches `c :: r` begins with a repetition that is not empty. -/
theorem matches_star_cons {a : Pattern} {c : Char} {r : List Char}
    (h : Matches (.star a) (c :: r)) :
    ∃ u v, r = u ++ v ∧ Matches a (c :: u) ∧ Matches (.star a) v := by
  generalize hs : c :: r = s at h
  generalize hp : Pattern.star a = p at h
  induction h with
  | done => cases hs
  | @more b u v hu hv _ ihv =>
    cases hp
    cases u with
    | nil => exact ihv hs rfl
    | cons d u =>
      obtain ⟨rfl, rfl⟩ := List.cons.inj hs
      exact ⟨u, v, rfl, hu, hv⟩
  | _ => cases hp

/-- The derivative by `c` has the texts that may follow `c`. -/
theorem matches_derivative_iff {a : Pattern} {c : Char} {r : List Char} :
    Matches (a.derivative c) r ↔ Matches a (c :: r) := by
  induction a generalizing r with
  | nothing => exact iff_of_false not_matches_nothing not_matches_nothing
  | empty => simp [derivative, not_matches_nothing, matches_empty_iff]
  | char p =>
    rw [derivative, matches_char_iff]
    split
    · rename_i hc
      rw [matches_empty_iff]
      exact ⟨fun h => ⟨c, by rw [h], hc⟩, fun ⟨_, h, _⟩ => (List.cons.inj h).2⟩
    · rename_i hc
      exact iff_of_false not_matches_nothing fun ⟨d, h, hd⟩ => hc ((List.cons.inj h).1 ▸ hd)
  | seq a b iha ihb =>
    have first : Matches (followedBy (a.derivative c) b) r ↔
        ∃ u v, r = u ++ v ∧ Matches a (c :: u) ∧ Matches b v := by
      simp only [matches_followedBy_iff, iha]
    have split_at : Matches (.seq a b) (c :: r) ↔
        (∃ u v, r = u ++ v ∧ Matches a (c :: u) ∧ Matches b v) ∨
          (Matches a [] ∧ Matches b (c :: r)) := by
      rw [matches_seq_iff]
      constructor
      · rintro ⟨u, v, h, hu, hv⟩
        cases u with
        | nil => exact .inr ⟨hu, (show c :: r = v from h) ▸ hv⟩
        | cons d u =>
          obtain ⟨rfl, rfl⟩ := List.cons.inj h
          exact .inl ⟨u, v, rfl, hu, hv⟩
      · rintro (⟨u, v, rfl, hu, hv⟩ | ⟨hu, hv⟩)
        · exact ⟨c :: u, v, rfl, hu, hv⟩
        · exact ⟨[], c :: r, rfl, hu, hv⟩
    rw [derivative, split_at]
    split
    · rename_i hn
      rw [matches_oneOf_iff, first, ihb]
      simp [matches_nil_iff, hn]
    · rename_i hn
      rw [first]
      simp [matches_nil_iff, hn]
  | alt a b iha ihb => rw [derivative, matches_oneOf_iff, matches_alt_iff, iha, ihb]
  | star a iha =>
    rw [derivative, matches_followedBy_iff]
    constructor
    · rintro ⟨u, v, rfl, hu, hv⟩
      exact .more (iha.1 hu) hv
    · intro h
      obtain ⟨u, v, rfl, hu, hv⟩ := matches_star_cons h
      exact ⟨u, v, rfl, iha.2 hu, hv⟩

/-- **The running reading accepts exactly the texts of the pattern.** -/
theorem accepts_iff {a : Pattern} {s : List Char} : a.accepts s = true ↔ Matches a s := by
  induction s generalizing a with
  | nil => exact matches_nil_iff.symm
  | cons c r ih => rw [accepts, ih, matches_derivative_iff]

end Pattern

end TransferFees.Text
