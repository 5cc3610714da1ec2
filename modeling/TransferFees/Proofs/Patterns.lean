import TransferFees.Text.Pattern

/-!
# Patterns of a common shape

What the texts of a pattern are, for the shapes that grammars are mostly made of: an optional part, a
given character, a run of characters of a class, and parts with something in between.

* `star_induction` — what holds of no repetition and of one more holds of all.
* `matches_plus_char_iff` — a run is what is not empty and has characters of the class alone.
* `matches_separated_iff` — parts with separators are one part, or one part and a separator in front
  of such a text.
-/

namespace TransferFees.Text.Pattern

/-- Induction on the repetitions of a text. -/
@[elab_as_elim]
theorem star_induction {a : Pattern} {motive : List Char → Prop} (done : motive [])
    (more : ∀ u v, Matches a u → Matches (.star a) v → motive v → motive (u ++ v)) {s : List Char}
    (h : Matches (.star a) s) : motive s := by
  generalize hp : Pattern.star a = p at h
  induction h with
  | done => exact done
  | more hu hv _ ihv =>
      cases hp
      exact more _ _ hu hv (ihv rfl)
  | _ => cases hp

/-! ## Single characters -/

section
variable {p : Char → Bool} {s : List Char}

/-- An optional part is there, or there is nothing. -/
theorem matches_opt_iff {a : Pattern} : Matches (.opt a) s ↔ Matches a s ∨ s = [] := by
  rw [opt, matches_alt_iff, matches_empty_iff]

/-- A given character matches as a text of its own. -/
theorem matches_lit_iff {c : Char} : Matches (.lit c) s ↔ s = [c] := by
  simp [lit, matches_char_iff]

/-- What begins with a character is not empty. -/
theorem not_matches_char_seq_nil {a : Pattern} : ¬Matches (.seq (.char p) a) [] := by
  simp [matches_seq_iff, matches_char_iff]

/-- A pattern that begins with a character of a class is read one character further, which is how
grammars are followed along a text. -/
theorem matches_char_seq_cons_iff {a : Pattern} {c : Char} {rest : List Char} :
    Matches (.seq (.char p) a) (c :: rest) ↔ p c = true ∧ Matches a rest := by
  simp only [matches_seq_iff, matches_char_iff]
  constructor
  · rintro ⟨_, v, heq, ⟨d, rfl, hd⟩, hv⟩
    obtain ⟨rfl, rfl⟩ := List.cons.inj heq
    exact ⟨hd, hv⟩
  · rintro ⟨hc, hrest⟩
    exact ⟨[c], rest, rfl, ⟨c, rfl, hc⟩, hrest⟩

/-- Any repetition of a class is a text with characters of the class alone. -/
theorem matches_star_char_iff : Matches (.star (.char p)) s ↔ ∀ c ∈ s, p c = true := by
  constructor
  · intro h
    refine star_induction (by simp) (fun u v hu _ ih => ?_) h
    obtain ⟨c, rfl, hc⟩ := matches_char_iff.1 hu
    exact List.forall_mem_cons.2 ⟨hc, ih⟩
  · intro h
    induction s with
    | nil => exact .done
    | cons c rest ih =>
        have hc : Matches (.char p) [c] := .char (h c (by simp))
        exact .more hc (ih fun d hd => h d (by simp [hd]))

/-- A run of a class is the same, and not empty. -/
theorem matches_plus_char_iff :
    Matches (.plus (.char p)) s ↔ s ≠ [] ∧ ∀ c ∈ s, p c = true := by
  rw [plus]
  cases s with
  | nil => simp [not_matches_char_seq_nil]
  | cons c rest => simp [matches_char_seq_cons_iff, matches_star_char_iff]

end

/-! ## Parts with separators -/

/-- Texts of `a`, one at least, each but the last with a text of `b` after it. -/
def separated (a b : Pattern) : Pattern := .seq (.star (.seq a b)) a

section
variable {a b : Pattern} {s : List Char}

/-- The first part is read from the front. What follows it is a separator and again a text of parts,
so proofs about such texts go by induction on their length. -/
theorem matches_separated_iff :
    Matches (separated a b) s ↔
      Matches a s ∨ ∃ u v w, s = u ++ (v ++ w) ∧ Matches a u ∧ Matches b v ∧
        Matches (separated a b) w := by
  rw [separated, matches_seq_iff]
  constructor
  · rintro ⟨front, last, rfl, hfront, hlast⟩
    cases hfront with
    | done => exact .inl hlast
    | more hpart hothers =>
        obtain ⟨u, v, rfl, hu, hv⟩ := matches_seq_iff.1 hpart
        exact .inr ⟨u, v, _, by simp, hu, hv, .seq hothers hlast⟩
  · rintro (hs | ⟨u, v, w, rfl, hu, hv, hw⟩)
    · exact ⟨[], s, rfl, .done, hs⟩
    · obtain ⟨front, last, rfl, hfront, hlast⟩ := matches_seq_iff.1 hw
      exact ⟨u ++ v ++ front, last, by simp, .more (.seq hu hv) hfront, hlast⟩

end

end TransferFees.Text.Pattern
