import Mathlib
import TransferFees.Decimal.Literal
import TransferFees.Proofs.Numerals
import TransferFees.Proofs.Patterns

/-!
# The grammar of numerals

A numeral is read in one pass from left to right. Its grammar is a pattern, and a pattern has
nothing to say on how a text is to be divided. The two agree (`Number.ofLiteral?_isSome_iff`): the
texts that name a number are the texts of the pattern `Literal.form`, no more and no fewer.

Letters and digits are those of ASCII. A letter counts in either case (`Literal.matches_word_iff`).

* `Number.takeDigits_whole`, `Number.takeDigits_point` — where the digits end and what follows.
* `Number.isNegative_of_ofLiteral?` — the sign in front is that of the number.
-/

namespace TransferFees

open Text (Pattern)
open Text.Pattern

namespace Literal

/-! ## The grammar -/

/-- A sign, plus or minus. -/
def isSign (c : Char) : Bool := c == '+' || c == '-'

/-- A sign or none. -/
def sign : Pattern := .opt (.char isSign)

/-- Digits, one at least. -/
def digits : Pattern := .plus (.char Char.isDigit)

/-- A letter in either case, given as a small one. -/
def letter (c : Char) : Pattern := .char fun d => d == c || d == c.toUpper

/-- A word in letters of either case. -/
def word : List Char → Pattern
  | [] => .empty
  | c :: rest => .seq (letter c) (word rest)

/-- Digits with a point among or after them or without one, or with a point before them. -/
def mantissa : Pattern :=
  .alt (.seq digits (.seq (.opt (.lit '.')) (.star (.char Char.isDigit)))) (.seq (.lit '.') digits)

/-- The letter `e`, a sign or none, and digits. -/
def exponent : Pattern := .seq (letter 'e') (.seq sign digits)

/-- A numeral of digits without its sign. -/
def decimal : Pattern := .seq mantissa (.opt exponent)

/-- What follows the sign of a numeral. -/
def body : Pattern :=
  .alt (word "inf".toList) (.alt (word "infinity".toList) (.alt (word "nan".toList) decimal))

/-- A numeral. -/
def form : Pattern := .seq sign body

/-- A numeral that stands for no number. -/
def notANumber : Pattern := .seq sign (word "nan".toList)

/-! ## Letters of either case -/

/-- Two characters become a small letter: the letter itself and its capital. -/
theorem toLower_eq_iff {c d : Char} (hc : c.isLower = true) :
    d.toLower = c ↔ d = c ∨ d = c.toUpper := by
  have hself : c.toLower = c := Char.toLower_eq_of_not_isUpper (Char.not_isUpper_of_isLower hc)
  constructor
  · rintro rfl
    by_cases hd : d.isUpper = true
    · right
      rw [Char.toUpper_toLower_eq_toUpper]
      exact (Char.toUpper_eq_of_not_isLower (Char.not_isLower_of_isUpper hd)).symm
    · exact .inl (Char.toLower_eq_of_not_isUpper hd).symm
  · rintro (rfl | rfl)
    · exact hself
    · rw [Char.toLower_toUpper_eq_toLower, hself]

/-- The texts of a word are those that become the word in small letters. -/
theorem matches_word_iff {w s : List Char} (hw : w.all Char.isLower = true) :
    Matches (word w) s ↔ s.map Char.toLower = w := by
  induction w generalizing s with
  | nil => simp [word, matches_empty_iff]
  | cons c rest ih =>
      rw [List.all_cons, Bool.and_eq_true] at hw
      have hletter {d : Char} := toLower_eq_iff (d := d) hw.1
      have hrest {t : List Char} := ih (s := t) hw.2
      rw [word, letter]
      cases s with
      | nil => simp [not_matches_char_seq_nil]
      | cons d v => simp [matches_char_seq_cons_iff, hletter, hrest]

end Literal

namespace Number

open Literal

variable {s : List Char}

/-! ## Signs -/

theorem eq_of_isSign {c : Char} (h : isSign c = true) : c = '+' ∨ c = '-' := by
  simpa [isSign] using h

theorem takeSign_of_head (h : ∀ c ∈ s.head?, isSign c = false) : takeSign s = (false, s) := by
  cases s with
  | nil => rfl
  | cons c rest =>
      have hc : c ≠ '+' ∧ c ≠ '-' := by simpa [isSign] using h
      unfold takeSign
      split <;> simp_all

/-- A sign is taken off, and nothing else is. A pattern without texts that begin with a sign leaves
no doubt whether there is one. -/
theorem matches_sign_seq_iff {a : Pattern}
    (ha : ∀ c rest, isSign c = true → ¬Matches a (c :: rest)) :
    Matches (.seq sign a) s ↔ Matches a (takeSign s).2 := by
  constructor
  · intro h
    obtain ⟨u, v, rfl, hu, hv⟩ := matches_seq_iff.1 h
    rcases matches_opt_iff.1 hu with hc | rfl
    · obtain ⟨c, rfl, hsign⟩ := matches_char_iff.1 hc
      rcases eq_of_isSign hsign with rfl | rfl <;> exact hv
    · have hhead : ∀ c ∈ v.head?, isSign c = false := by
        intro c hc
        cases v with
        | nil => simp at hc
        | cons d rest =>
            obtain rfl : d = c := by simpa using hc
            simpa using fun hsign => ha d rest hsign hv
      rw [List.nil_append, takeSign_of_head hhead]
      exact hv
  · intro h
    have hsome {c : Char} (hc : isSign c = true) : Matches sign [c] :=
      matches_opt_iff.2 (.inl (.char hc))
    have hnone : Matches sign [] := matches_opt_iff.2 (.inr rfl)
    unfold takeSign at h
    split at h
    · exact .seq (hsome (by decide)) h
    · exact .seq (hsome (by decide)) h
    · exact .seq hnone h

theorem takeSign_of_minus (h : s.head? = some '-') : (takeSign s).1 = true := by
  cases s with
  | nil => simp at h
  | cons c rest =>
      obtain rfl : c = '-' := by simpa using h
      rfl

/-! ## Digits, a point, an exponent -/

section
variable {whole fraction rest : List Char}

theorem takeWhile_append_stop (hw : ∀ c ∈ whole, c.isDigit = true)
    (hr : ∀ c ∈ rest.head?, c.isDigit = false) :
    (whole ++ rest).takeWhile Char.isDigit = whole ∧
      (whole ++ rest).dropWhile Char.isDigit = rest := by
  rw [List.takeWhile_append_of_pos hw, List.dropWhile_append_of_pos hw]
  cases rest with
  | nil => simp
  | cons c rest => simp_all

theorem takeDigits_whole (hw : ∀ c ∈ whole, c.isDigit = true)
    (hr : ∀ c ∈ rest.head?, c.isDigit = false ∧ c ≠ '.') :
    takeDigits (whole ++ rest) = (whole, [], rest) := by
  obtain ⟨htake, hdrop⟩ := takeWhile_append_stop hw fun c hc => (hr c hc).1
  simp only [takeDigits, htake, hdrop]
  split
  · simp at hr
  · rfl

/-- Digits on both sides of a point are taken apart there. -/
theorem takeDigits_point (hw : ∀ c ∈ whole, c.isDigit = true)
    (hf : ∀ c ∈ fraction, c.isDigit = true) (hr : ∀ c ∈ rest.head?, c.isDigit = false) :
    takeDigits (whole ++ '.' :: (fraction ++ rest)) = (whole, fraction, rest) := by
  have hpoint : ∀ c ∈ ('.' :: (fraction ++ rest)).head?, c.isDigit = false := by simp
  obtain ⟨htake, hdrop⟩ := takeWhile_append_stop hw hpoint
  obtain ⟨htake', hdrop'⟩ := takeWhile_append_stop hf hr
  simp only [takeDigits, htake, hdrop, htake', hdrop']

/-- What is taken is put together again, with the point or without one. -/
theorem takeDigits_cases (s : List Char) :
    ∃ whole fraction rest, takeDigits s = (whole, fraction, rest) ∧
      (∀ c ∈ whole, c.isDigit = true) ∧ (∀ c ∈ fraction, c.isDigit = true) ∧
      (s = whole ++ '.' :: (fraction ++ rest) ∨ fraction = [] ∧ s = whole ++ rest) := by
  have htaken (t : List Char) : ∀ c ∈ t.takeWhile Char.isDigit, c.isDigit = true :=
    fun c hc => List.all_eq_true.1 List.all_takeWhile c hc
  have hs := List.takeWhile_append_dropWhile (p := Char.isDigit) (l := s)
  unfold takeDigits
  split
  · rename_i r hpoint
    refine ⟨_, _, _, rfl, htaken s, htaken r, .inl ?_⟩
    rw [List.takeWhile_append_dropWhile, ← hpoint, hs]
  · refine ⟨_, _, _, rfl, htaken s, by simp, .inr ⟨rfl, hs.symm⟩⟩

end

/-- The digits of the grammar are what `isNumeral` accepts. -/
theorem matches_digits_iff : Matches digits s ↔ Numeral.isNumeral s = true := by
  rw [digits, matches_plus_char_iff, Numeral.isNumeral_iff]

theorem not_matches_digits_of_sign {c : Char} (hc : isSign c = true) (rest : List Char) :
    ¬Matches digits (c :: rest) := by
  intro h
  have hdigit := (Numeral.isNumeral_iff.1 (matches_digits_iff.1 h)).2 c (by simp)
  rcases eq_of_isSign hc with rfl | rfl <;> simp at hdigit

/-- An exponent is read just where the grammar has one, or where nothing is left. -/
theorem exponent?_isSome_iff : (exponent? s).isSome = true ↔ Matches (.opt exponent) s := by
  have hsigned (rest : List Char) : Matches (.seq sign digits) rest ↔
      Numeral.isNumeral (takeSign rest).2 = true := by
    rw [matches_sign_seq_iff fun c rest hc => not_matches_digits_of_sign hc rest,
      matches_digits_iff]
  rw [matches_opt_iff, exponent, letter]
  cases s with
  | nil => simp [exponent?]
  | cons c rest =>
      rw [matches_char_seq_cons_iff, hsigned, exponent?]
      by_cases he : c = 'e' ∨ c = 'E'
      · simp [he]
      · simp [he]

/-- What begins an exponent, or ends the text, is no part of the digits. -/
theorem stops_of_exponent (h : Matches (.opt exponent) s) :
    ∀ c ∈ s.head?, c.isDigit = false ∧ c ≠ '.' := by
  rw [matches_opt_iff, exponent, letter] at h
  cases s with
  | nil => simp
  | cons c rest =>
      have hletter := (matches_char_seq_cons_iff.1 (h.resolve_right (by simp))).1
      have hcase : c = 'e' ∨ c = 'E' := by simpa using hletter
      rcases hcase with rfl | rfl <;> simp

/-- There has to be a digit on one side of the point, and an exponent or nothing behind. -/
theorem ofDigits?_isSome_of {negative : Bool} {whole fraction rest : List Char}
    (htake : takeDigits s = (whole, fraction, rest)) :
    (ofDigits? negative s).isSome = true ↔
      (whole ≠ [] ∨ fraction ≠ []) ∧ Matches (.opt exponent) rest := by
  rw [← exponent?_isSome_iff]
  simp only [ofDigits?, htake]
  split
  · rename_i hnone
    simp [hnone]
  · rename_i hsome
    have hsome' : whole ≠ [] ∨ fraction ≠ [] := Decidable.not_and_iff_or_not.1 hsome
    simp [hsome']

/-- Digits without a point are one run, however the pattern divides them. -/
theorem matches_mantissa_iff : Matches mantissa s ↔
    ∃ whole fraction, (∀ c ∈ whole, c.isDigit = true) ∧ (∀ c ∈ fraction, c.isDigit = true) ∧
      (whole ≠ [] ∨ fraction ≠ []) ∧
      (s = whole ++ '.' :: fraction ∨ fraction = [] ∧ s = whole) := by
  simp only [mantissa, digits, matches_alt_iff, matches_seq_iff, matches_opt_iff, matches_lit_iff,
    matches_plus_char_iff, matches_star_char_iff]
  constructor
  · rintro (⟨whole, _, rfl, ⟨hne, hw⟩, _, fraction, rfl, rfl | rfl, hf⟩ |
      ⟨_, fraction, rfl, rfl, hne, hf⟩)
    · exact ⟨whole, fraction, hw, hf, .inl hne, .inl rfl⟩
    · refine ⟨whole ++ fraction, [], ?_, by simp, by simp [hne], by simp⟩
      simpa [or_imp, forall_and] using ⟨hw, hf⟩
    · exact ⟨[], fraction, by simp, hf, .inr hne, .inl rfl⟩
  · rintro ⟨whole, fraction, hw, hf, hsome, rfl | ⟨rfl, rfl⟩⟩
    · by_cases hne : whole = []
      · subst hne
        exact .inr ⟨['.'], fraction, rfl, rfl, hsome.resolve_left (by simp), hf⟩
      · exact .inl ⟨whole, '.' :: fraction, rfl, ⟨hne, hw⟩, ['.'], fraction, rfl, .inl rfl, hf⟩
    · have hne : s ≠ [] := hsome.resolve_right (by simp)
      exact .inl ⟨s, [], by simp, ⟨hne, hw⟩, [], [], rfl, .inr rfl, by simp⟩

/-- **Digits are read just where the grammar has them.** -/
theorem ofDigits?_isSome_iff (negative : Bool) :
    (ofDigits? negative s).isSome = true ↔ Matches decimal s := by
  simp only [decimal, matches_seq_iff, matches_mantissa_iff]
  constructor
  · intro h
    obtain ⟨whole, fraction, rest, htake, hw, hf, hs⟩ := takeDigits_cases s
    obtain ⟨hsome, hrest⟩ := (ofDigits?_isSome_of htake).1 h
    rcases hs with rfl | ⟨rfl, rfl⟩
    · exact ⟨whole ++ '.' :: fraction, rest, by simp, ⟨whole, fraction, hw, hf, hsome, by simp⟩,
        hrest⟩
    · exact ⟨whole, rest, rfl, ⟨whole, [], hw, hf, hsome, by simp⟩, hrest⟩
  · rintro ⟨_, rest, rfl, ⟨whole, fraction, hw, hf, hsome, hs⟩, hrest⟩
    have hstops := stops_of_exponent hrest
    rcases hs with rfl | ⟨rfl, rfl⟩
    · have htake := takeDigits_point hw hf fun c hc => (hstops c hc).1
      rw [List.append_assoc, List.cons_append, ofDigits?_isSome_of htake]
      exact ⟨hsome, hrest⟩
    · have htake := takeDigits_whole hw hstops
      rw [ofDigits?_isSome_of htake]
      exact ⟨hsome, hrest⟩

/-! ## Whole numerals -/

theorem not_matches_body_of_sign (c : Char) (rest : List Char) (hc : isSign c = true) :
    ¬Matches body (c :: rest) := by
  -- no text of the pattern goes on after a sign
  rw [← matches_derivative_iff]
  rcases eq_of_isSign hc with rfl | rfl
  · exact not_matches_nothing
  · exact not_matches_nothing

/-- What stands behind the sign: a word in letters of either case, or digits. -/
theorem matches_body_iff : Matches body s ↔
    s.map Char.toLower = "inf".toList ∨ s.map Char.toLower = "infinity".toList ∨
      s.map Char.toLower = "nan".toList ∨ Matches decimal s := by
  simp only [body, matches_alt_iff]
  rw [matches_word_iff (by decide), matches_word_iff (by decide), matches_word_iff (by decide)]

/-- **The texts that name a number are the texts of the grammar.** -/
theorem ofLiteral?_isSome_iff : (ofLiteral? s).isSome = true ↔ Matches form s := by
  rw [form, matches_sign_seq_iff not_matches_body_of_sign, matches_body_iff,
    ← ofDigits?_isSome_iff (takeSign s).1]
  simp only [ofLiteral?]
  split
  · rename_i hword
    simp only [← or_assoc, hword, Option.isSome_some, true_or]
  · rename_i hword
    split
    · rename_i hnan
      simp only [hnan, Option.isSome_some, true_or, or_true]
    · rename_i hnan
      simp only [← or_assoc, hword, hnan, false_or]

/-- Digits or a point at the front tell a numeral of digits from the words. -/
theorem head_of_decimal (h : Matches decimal s) : ∃ c ∈ s.head?, c.isDigit = true ∨ c = '.' := by
  simp only [decimal, matches_seq_iff, matches_mantissa_iff] at h
  obtain ⟨_, rest, rfl, ⟨whole, fraction, hw, -, hsome, hs⟩, -⟩ := h
  cases whole with
  | nil =>
      rcases hs with rfl | ⟨rfl, rfl⟩
      · simp
      · simp at hsome
  | cons c whole =>
      have hc := hw c (by simp)
      rcases hs with rfl | ⟨rfl, rfl⟩ <;> simp [hc]

theorem not_isAlpha_of_isDigit {c : Char} (h : c.isDigit = true) : ¬c.isAlpha = true := by
  have hdigit := Char.isDigit_iff_toNat.1 h
  simp [Char.isAlpha, Char.isUpper, Char.isLower, UInt32.le_iff_toNat_le] at hdigit ⊢
  omega

/-- Numerals of digits are none of the words, for these begin with a letter. -/
theorem map_toLower_ne_of_decimal {w : List Char} (h : Matches decimal s)
    (hw : ∃ c ∈ w.head?, c.isAlpha = true) : s.map Char.toLower ≠ w := by
  rintro rfl
  obtain ⟨d, hd, hcase⟩ := head_of_decimal h
  obtain ⟨c, hc, hletter⟩ := hw
  obtain rfl : d.toLower = c := by
    rw [List.head?_map, hd] at hc
    exact Option.some.inj hc
  rw [Char.isAlpha_toLower_eq_isAlpha] at hletter
  rcases hcase with hdigit | rfl
  · exact not_isAlpha_of_isDigit hdigit hletter
  · simp at hletter

/-- A numeral of digits is read as such, with the sign in front of it. -/
theorem ofLiteral?_of_decimal (h : Matches decimal (takeSign s).2) :
    ofLiteral? s = ofDigits? (takeSign s).1 (takeSign s).2 := by
  have hinf : (takeSign s).2.map Char.toLower ≠ "inf".toList :=
    map_toLower_ne_of_decimal h ⟨'i', rfl, by decide⟩
  have hinfinity : (takeSign s).2.map Char.toLower ≠ "infinity".toList :=
    map_toLower_ne_of_decimal h ⟨'i', rfl, by decide⟩
  have hnan : (takeSign s).2.map Char.toLower ≠ "nan".toList :=
    map_toLower_ne_of_decimal h ⟨'n', rfl, by decide⟩
  simp only [ofLiteral?]
  rw [if_neg (not_or.2 ⟨hinf, hinfinity⟩), if_neg hnan]

/-- A numeral that stands for no number names none. -/
theorem ofLiteral?_of_notANumber (h : Matches Literal.notANumber s) :
    ∃ negative, ofLiteral? s = some (.notANumber negative) := by
  have hsign (c : Char) (rest : List Char) (hc : isSign c = true) :
      ¬Matches (word "nan".toList) (c :: rest) := by
    intro hnan
    exact not_matches_body_of_sign c rest hc (.right (.right (.left hnan)))
  rw [Literal.notANumber, matches_sign_seq_iff hsign, matches_word_iff (by decide)] at h
  refine ⟨(takeSign s).1, ?_⟩
  simp [ofLiteral?, h]

/-- The sign of a number. -/
def isNegative : Number → Bool
  | .finite d => d.negative
  | .infinite negative => negative
  | .notANumber negative => negative

/-- A number keeps its sign where it leaves the range. -/
theorem isNegative_ofParts (range : ExponentRange) (d : Decimal) :
    (ofParts range d).isNegative = d.negative := by
  unfold ofParts
  split_ifs <;> rfl

/-- The sign of what was read is the one that was written. -/
theorem isNegative_of_ofLiteral? {number : Number} (h : ofLiteral? s = some number) :
    number.isNegative = (takeSign s).1 := by
  simp only [ofLiteral?, ofDigits?] at h
  split_ifs at h
  · cases h
    rfl
  · cases h
    rfl
  · obtain ⟨e, -, rfl⟩ := Option.map_eq_some_iff.1 h
    exact isNegative_ofParts _ _

end Number

end TransferFees
