import TransferFees.Double
import TransferFees.Proofs.PercentErrors
import TransferFees.Proofs.Spellings

/-!
# What a numeral is read as

A numeral of digits is read exactly as long as its number can be made: nothing is rounded, however
many digits there are, and a zero keeps its exponent. A number that cannot be made is read once
more, as the double nearest to it (`Decimal.reading`).

The range of doubles ends long before that of decimal numbers. So the second reading gives an
infinity where the number is too large, and a zero in all other cases; it has the sign of the number
and agrees with the first reading on which side it has left the range (`Double.number_of_not_fits`).
One thing could upset this: digits so many that they make up for an exponent far below the range. It
would take more of them than any text has.
-/

namespace TransferFees

open Literal

namespace Numeral

/-- Digits stand for less than the power of ten behind them. -/
theorem value_lt {cs : List Char} (h : ∀ c ∈ cs, c.isDigit = true) :
    value cs < placeValue cs.length := by
  induction cs using List.reverseRecOn with
  | nil => decide
  | append_singleton front c ih =>
      have hfront := ih fun d hd => h d (List.mem_append_left _ hd)
      have hlast := digitValue_lt (h c (by simp))
      rw [value_append_singleton, List.length_append, List.length_singleton, placeValue_succ]
      omega

theorem length_value_le {cs : List Char} (hne : cs ≠ []) (h : ∀ c ∈ cs, c.isDigit = true) :
    length (value cs) ≤ cs.length :=
  (length_le_iff (List.length_pos_iff.2 hne)).2 (value_lt h)

end Numeral

/-- The digits of the number are among the characters of the text. -/
theorem Literal.Spelling.length_number_le (w : Spelling) :
    Numeral.length w.number.coefficient ≤ w.text.length := by
  have hne : w.whole ++ w.decimals ≠ [] := by
    intro hnil
    obtain ⟨hwhole, hdecimals⟩ := List.append_eq_nil_iff.1 hnil
    exact w.ne_nil.elim (fun h => h hwhole) (fun h => h hdecimals)
  have hdigits : ∀ c ∈ w.whole ++ w.decimals, c.isDigit = true := by
    intro c hc
    rcases List.mem_append.1 hc with hwhole | hdecimals
    · exact w.whole_digits c hwhole
    · exact w.fraction_digits c hdecimals
  have hmantissa : (w.whole ++ w.decimals).length ≤ w.mantissa.length := by
    cases hf : w.fraction <;> simp [mantissa, decimals, hf]
  refine (Numeral.length_value_le hne hdigits).trans (hmantissa.trans ?_)
  simp only [text, String.length_ofList, List.length_append]
  omega

/-! ## Two readings -/

/-- The number can be made: its first digit does not count too much, nor its last digit too
little. -/
def Decimal.Fits (d : Decimal) : Prop :=
  d.adjusted ≤ 999999999999999999 ∧ -1999999999999999997 ≤ d.exponent

/-- The number that a double is. -/
def Double.number : Double → Number
  | .finite negative significand exponent => .finite (toDecimal negative significand exponent)
  | .infinite negative => .infinite negative
  | .notANumber => .notANumber false

/-- The number itself, if it can be made, and else the double nearest to it. -/
def Decimal.reading (d : Decimal) : Number :=
  match (Number.finite d).construct? with
  | .ok number => number
  | .error _ => (Double.ofDecimal d).number

section
variable {d : Decimal}

/-- Where the number fits, neither limit is passed. -/
theorem not_passed_of_fits (h : d.Fits) :
    ¬ExponentRange.standard.greatestAdjusted < d.adjusted ∧
      ¬d.exponent < ExponentRange.standard.leastExponent :=
  ⟨Int.not_lt.2 h.1, Int.not_lt.2 h.2⟩

theorem passed_of_not_fits (h : ¬d.Fits) :
    ExponentRange.standard.greatestAdjusted < d.adjusted ∨
      d.exponent < ExponentRange.standard.leastExponent := by
  by_contra hnone
  rw [not_or, Int.not_lt, Int.not_lt] at hnone
  exact h hnone

theorem Number.ofParts_of_fits (h : d.Fits) : ofParts .standard d = .finite d := by
  obtain ⟨hgreatest, hleast⟩ := not_passed_of_fits h
  rw [ofParts, if_neg hgreatest, if_neg hleast]

theorem Number.construct?_of_fits (h : d.Fits) : (finite d).construct? = .ok (.finite d) := by
  obtain ⟨hgreatest, hleast⟩ := not_passed_of_fits h
  exact if_neg (not_or.2 ⟨hgreatest, hleast⟩)

theorem Number.construct?_of_not_fits (h : ¬d.Fits) :
    (finite d).construct? = .error .invalidOperation :=
  if_pos (passed_of_not_fits h)

theorem Number.ofParts_of_not_fits (h : ¬d.Fits) :
    ofParts .standard d = (finite d).outside := by
  rcases (finite d).construct?_cases with hmade | ⟨-, hinstead⟩
  · rw [construct?_of_not_fits h] at hmade
    cases hmade
  · exact hinstead.symm

/-- **The second reading** knows neither so large nor so small numbers. -/
theorem Double.number_of_not_fits (h : ¬d.Fits) (hlength : Numeral.length d.coefficient < 10 ^ 17) :
    (ofDecimal d).number = (Number.finite d).outside := by
  have hzero : (Double.finite d.negative 0 0).number = .finite ⟨d.negative, 0, 0⟩ := rfl
  rw [Number.outside]
  by_cases hlarge : ExponentRange.standard.greatestAdjusted < d.adjusted
  · by_cases hnone : d.coefficient = 0
    · rw [ofDecimal, if_pos (.inl hnone), if_neg (fun hboth => hboth.1 hnone), hzero]
    · have hbound : 308 < d.adjusted ∧ ¬d.adjusted < -324 := by
        simp only [ExponentRange.standard] at hlarge
        omega
      rw [ofDecimal, if_neg (not_or.2 ⟨hnone, hbound.2⟩), if_pos hbound.1, if_pos ⟨hnone, hlarge⟩]
      rfl
  · -- the last digit counts too little, and there are too few digits for the first to count more
    have hsmall : d.adjusted < -324 := by
      have hexponent := (passed_of_not_fits h).resolve_left hlarge
      simp only [ExponentRange.standard] at hexponent
      rw [Decimal.adjusted]
      omega
    rw [ofDecimal, if_pos (.inr hsmall), if_neg (fun hboth => hlarge hboth.2), hzero]

/-- Both readings together give the number within its limits. -/
theorem Decimal.reading_eq (hlength : Numeral.length d.coefficient < 10 ^ 17) :
    d.reading = Number.ofParts .standard d := by
  by_cases h : d.Fits
  · rw [reading, Number.construct?_of_fits h, Number.ofParts_of_fits h]
  · rw [reading, Number.construct?_of_not_fits h, Number.ofParts_of_not_fits h]
    exact Double.number_of_not_fits h hlength

end

namespace Percent

/-- What the text says is read, with the limits of numbers put on it. -/
theorem parseNumber_text (w : Spelling) :
    parseNumber w.text = .ok (Number.ofParts .standard w.number) := by
  rw [parseNumber_eq_ok_iff, Spelling.text, String.toList_ofList]
  exact Number.ofLiteral?_spelling w

/-- **Numerals are read exactly** where their numbers can be made. Elsewhere a text that is not
absurdly long is read as an infinity with its sign if the number is too large, and else as zero with
its sign; and this is what the two readings come to. -/
theorem parseNumber_exact (w : Spelling) :
    (w.number.Fits → parseNumber w.text = .ok (.finite w.number)) ∧
    (w.text.length < 10 ^ 17 →
      (¬w.number.Fits → parseNumber w.text = .ok
        (if w.number.coefficient ≠ 0 ∧ 999999999999999999 < w.number.adjusted then
          .infinite w.sign.isMinus
        else .finite ⟨w.sign.isMinus, 0, 0⟩)) ∧
      parseNumber w.text = .ok w.number.reading) := by
  rw [parseNumber_text]
  refine ⟨fun h => ?_, fun hlength => ⟨fun h => ?_, ?_⟩⟩
  · rw [Number.ofParts_of_fits h]
  · rw [Number.ofParts_of_not_fits h]
    rfl
  · rw [Decimal.reading_eq (w.length_number_le.trans_lt hlength)]

/-- A zero in front counts for nothing and one behind does. The first power of ten that cannot be
made is read as an infinity. -/
theorem parseNumber_exact_about_the_limit :
    let tenth : Spelling := {
      sign := .minus, whole := ['0'], fraction := some ['1', '0']
      exponent := some ⟨true, .plus, ['0', '5'], rfl⟩
      whole_digits := by simp, fraction_digits := by simp, ne_nil := by simp }
    let power : Spelling := {
      sign := .absent, whole := ['1'], fraction := none
      exponent := some ⟨false, .absent, '1' :: List.replicate 18 '0', rfl⟩
      whole_digits := by simp, fraction_digits := by simp, ne_nil := by simp }
    tenth.text = "-0.10E+05" ∧ tenth.number.Fits ∧
      parseNumber tenth.text = .ok (.finite ⟨true, 10, 3⟩) ∧
      power.text = "1e1000000000000000000" ∧ power.text.length < 10 ^ 17 ∧ ¬power.number.Fits ∧
      parseNumber power.text = .ok (.infinite false) ∧ power.number.reading = .infinite false := by
  intro tenth power
  have hpart : tenth.number = ⟨true, 10, 3⟩ := rfl
  have hwhole : power.number = ⟨false, 1, 1000000000000000000⟩ := rfl
  have htenth : tenth.number.Fits := by
    rw [hpart]
    exact ⟨by decide, by decide⟩
  have hpower : ¬power.number.Fits := by
    rw [hwhole]
    exact fun hfits => absurd hfits.1 (by decide)
  have hlength : power.text.length < 10 ^ 17 := by decide
  obtain ⟨hbeyond, hreading⟩ := (parseNumber_exact power).2 hlength
  have hinfinite : parseNumber power.text = .ok (.infinite false) := by
    rw [hbeyond hpower, hwhole, if_pos (by decide)]
    rfl
  rw [hinfinite] at hreading
  exact ⟨rfl, htenth, (parseNumber_exact tenth).1 htenth, rfl, hlength, hpower, hinfinite,
    (Except.ok.inj hreading).symm⟩

end Percent

end TransferFees
