import TransferFees.Proofs.Literals

/-!
# Numerals of digits, part by part

A numeral of digits is a sign or none, digits with a point or without one, and an exponent or none.
`Spelling` holds these parts, with as many digits and zeros in front as anyone may write. Reading
takes the text apart again just there where the parts meet, and so every part counts for what it is
(`Number.ofLiteral?_spelling`): the digits are the coefficient, the exponent is the one that is
written less one for each decimal, and the sign is the one in front.
-/

namespace TransferFees

namespace Literal

/-! ## The parts of a numeral -/

/-- A sign in front, or none. -/
inductive Sign where
  | absent
  | plus
  | minus

def Sign.chars : Sign → List Char
  | absent => []
  | plus => ['+']
  | minus => ['-']

def Sign.isMinus : Sign → Bool
  | minus => true
  | _ => false

/-- An exponent: the letter `e`, a sign or none, and digits. -/
structure Exponent where
  /-- Whether the letter is a capital. -/
  capital : Bool
  sign : Sign
  digits : List Char
  digits_isNumeral : Numeral.isNumeral digits = true

def Exponent.chars (e : Exponent) : List Char :=
  (if e.capital then 'E' else 'e') :: (e.sign.chars ++ e.digits)

/-- The power of ten that the exponent names. -/
def Exponent.power (e : Exponent) : Int :=
  if e.sign.isMinus then -(Numeral.value e.digits : Int) else Numeral.value e.digits

/-- A numeral of digits. There is a digit before the point or behind it. -/
structure Spelling where
  sign : Sign
  /-- The digits before the point. -/
  whole : List Char
  /-- The digits behind the point, if there is one. -/
  fraction : Option (List Char)
  exponent : Option Exponent
  whole_digits : ∀ c ∈ whole, c.isDigit = true
  fraction_digits : ∀ c ∈ fraction.getD [], c.isDigit = true
  ne_nil : whole ≠ [] ∨ fraction.getD [] ≠ []

namespace Spelling

variable (w : Spelling)

/-- The digits behind the point; without a point there are none. -/
def decimals : List Char := w.fraction.getD []

/-- The digits with the point. -/
def mantissa : List Char :=
  match w.fraction with
  | none => w.whole
  | some ds => w.whole ++ '.' :: ds

/-- The exponent as it is written. -/
def tail : List Char :=
  match w.exponent with
  | none => []
  | some e => e.chars

/-- The power of ten that is written; without an exponent it is zero. -/
def power : Int :=
  match w.exponent with
  | none => 0
  | some e => e.power

def text : String := String.ofList (w.sign.chars ++ (w.mantissa ++ w.tail))

/-- The number that is written. -/
def number : Decimal :=
  ⟨w.sign.isMinus, Numeral.value (w.whole ++ w.decimals), w.power - w.decimals.length⟩

end Spelling

end Literal

open Literal

namespace Number

/-! ## Reading the parts -/

/-- A sign is taken off what does not begin with one. -/
theorem takeSign_chars_append (sign : Sign) {cs : List Char}
    (h : ∀ c ∈ cs.head?, isSign c = false) : takeSign (sign.chars ++ cs) = (sign.isMinus, cs) := by
  cases sign with
  | absent => exact takeSign_of_head h
  | plus => rfl
  | minus => rfl

theorem isSign_of_isDigit {c : Char} (h : c.isDigit = true) : isSign c = false := by
  by_contra hsign
  rcases eq_of_isSign (by simpa using hsign) with rfl | rfl <;> simp at h

/-- An exponent is read with its sign and all its digits, zeros in front included. -/
theorem exponent?_chars (e : Exponent) : exponent? e.chars = some e.power := by
  obtain ⟨-, hdigits⟩ := Numeral.isNumeral_iff.1 e.digits_isNumeral
  have hsign : takeSign (e.sign.chars ++ e.digits) = (e.sign.isMinus, e.digits) := by
    refine takeSign_chars_append e.sign fun c hc => ?_
    exact isSign_of_isDigit (hdigits c (List.mem_of_mem_head? hc))
  have hletter :
      (if e.capital then 'E' else 'e') = 'e' ∨ (if e.capital then 'E' else 'e') = 'E' := by
    cases e.capital <;> simp
  simp only [Exponent.chars, exponent?, hletter, if_true, hsign, e.digits_isNumeral, Exponent.power]

section
variable (w : Spelling)

theorem exponent?_tail : exponent? w.tail = some w.power := by
  rw [Spelling.tail, Spelling.power]
  cases w.exponent with
  | none => rfl
  | some e => exact exponent?_chars e

/-- An exponent begins with a letter, so it is no part of the digits. -/
theorem tail_stops : ∀ c ∈ w.tail.head?, c.isDigit = false ∧ c ≠ '.' := by
  intro c hc
  rw [Spelling.tail] at hc
  cases he : w.exponent with
  | none => simp [he] at hc
  | some e =>
      cases hcapital : e.capital <;>
        · obtain rfl := by simpa [he, Exponent.chars, hcapital] using hc
          decide

/-- The digits are taken apart at the point, and end where the exponent begins. -/
theorem takeDigits_mantissa_tail :
    takeDigits (w.mantissa ++ w.tail) = (w.whole, w.decimals, w.tail) := by
  cases hf : w.fraction with
  | none =>
      have htake := takeDigits_whole w.whole_digits (tail_stops w)
      simpa [Spelling.mantissa, Spelling.decimals, hf] using htake
  | some ds =>
      have hds : ∀ c ∈ ds, c.isDigit = true := by
        simpa [hf] using w.fraction_digits
      have htake := takeDigits_point w.whole_digits hds fun c hc => (tail_stops w c hc).1
      simpa [Spelling.mantissa, Spelling.decimals, hf] using htake

theorem ofDigits?_mantissa_tail (negative : Bool) :
    ofDigits? negative (w.mantissa ++ w.tail) =
      some (ofParts .standard { w.number with negative }) := by
  have hne : ¬(w.whole = [] ∧ w.decimals = []) := by
    rintro ⟨hwhole, hdecimals⟩
    exact w.ne_nil.elim (fun h => h hwhole) (fun h => h hdecimals)
  simp only [ofDigits?, takeDigits_mantissa_tail, if_neg hne, exponent?_tail, Option.map_some,
    Spelling.number]

theorem mantissa_tail_matches : Text.Pattern.Matches Literal.decimal (w.mantissa ++ w.tail) := by
  rw [← ofDigits?_isSome_iff false, ofDigits?_mantissa_tail]
  rfl

/-- The sign is told from the digits, and each part is read as it is written. -/
theorem ofLiteral?_spelling :
    ofLiteral? (w.sign.chars ++ (w.mantissa ++ w.tail)) = some (ofParts .standard w.number) := by
  have hsign : takeSign (w.sign.chars ++ (w.mantissa ++ w.tail)) =
      (w.sign.isMinus, w.mantissa ++ w.tail) := by
    refine takeSign_chars_append w.sign fun c hc => ?_
    obtain ⟨d, hd, hcase⟩ := head_of_decimal (mantissa_tail_matches w)
    obtain rfl : d = c := Option.some.inj (hd.symm.trans hc)
    rcases hcase with hdigit | rfl
    · exact isSign_of_isDigit hdigit
    · decide
  have hmatches : Text.Pattern.Matches Literal.decimal
      (takeSign (w.sign.chars ++ (w.mantissa ++ w.tail))).2 := by
    rw [hsign]
    exact mantissa_tail_matches w
  rw [ofLiteral?_of_decimal hmatches, hsign, ofDigits?_mantissa_tail]
  rfl

end

end Number

end TransferFees
