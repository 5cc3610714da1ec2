import TransferFees.Percent

/-!
# Percents that are read and written

A percent that is read lies in the range of fee percents (`parse_range`). Writing is exact as long
as 28 digits are enough: neither the scaling nor the rounding to two places then touches a digit
(`format?_eq`), so every fee percent has a text.
-/

namespace TransferFees

theorem Numeral.length_le_iff {n k : Nat} (hk : 0 < k) :
    Numeral.length n ≤ k ↔ n < Numeral.placeValue k :=
  Nat.length_toDigits_le_iff (by decide) hk

namespace Decimal

/-- Rounding leaves a number alone that has few enough digits. -/
theorem round_eq_self {p : Precision} {d : Decimal} (hl : p.leastExponent ≤ d.exponent)
    (hd : Numeral.length d.coefficient ≤ p.digits) : d.round p = d := by
  have hleast : max p.leastExponent
      (d.exponent + (Numeral.length d.coefficient : Int) - (p.digits : Int)) ≤ d.exponent := by
    omega
  rw [round]
  exact if_pos hleast

/-- A number whose last digit is at the wanted place already is kept. -/
theorem quantize?_eq_self {p : Precision} {d : Decimal}
    (hd : Numeral.length d.coefficient ≤ p.digits) : d.quantize? p d.exponent = some d := by
  have hone :
      d.coefficient * Numeral.placeValue (d.exponent - d.exponent).toNat = d.coefficient := by
    rw [Int.sub_self]
    exact Nat.mul_one _
  simp only [quantize?, Int.le_refl, if_true, hone, if_pos hd]

end Decimal

namespace Percent

/-- **Writing is exact** as long as 28 digits are enough. -/
theorem format?_eq {z : Int} (h : z.natAbs < Numeral.placeValue 28) :
    format? z = some (Decimal.hundredthsText ⟨z < 0, z.natAbs, -2⟩) := by
  have hlength : Numeral.length z.natAbs ≤ Precision.standard.digits :=
    (Numeral.length_le_iff (by decide)).2 h
  have hshift : (Decimal.ofInt z).shift (-places) = ⟨z < 0, z.natAbs, -2⟩ := rfl
  have hleast : Precision.standard.leastExponent ≤ -2 := by decide
  have hround : (Decimal.mk (z < 0) z.natAbs (-2)).round .standard = ⟨z < 0, z.natAbs, -2⟩ :=
    Decimal.round_eq_self hleast hlength
  have hquantize : (Decimal.mk (z < 0) z.natAbs (-2)).quantize? .standard (-places) =
      some ⟨z < 0, z.natAbs, -2⟩ :=
    Decimal.quantize?_eq_self hlength
  rw [format?, hshift, hround, hquantize]
  rfl

theorem ofNumber_range {number : Number} {p : Int} (h : ofNumber number = .ok p) :
    least ≤ p ∧ p ≤ greatest := by
  cases number with
  | notANumber negative => cases h
  | infinite negative => cases h
  | finite d =>
      simp only [ofNumber] at h
      split at h
      · cases h
      · split at h
        · cases h
        · split at h
          · cases h
          · split at h
            · cases h
            · cases h
              omega

/-- **What is read lies in the range.** -/
theorem parse_range {text : String} {p : Int} (h : parse text = .ok p) :
    least ≤ p ∧ p ≤ greatest := by
  simp only [parse] at h
  cases hd : checkDecimals text with
  | error e =>
      rw [hd] at h
      cases h
  | ok u =>
      cases hn : parseNumber text with
      | error e =>
          rw [hd, hn] at h
          cases h
      | ok number =>
          rw [hd, hn] at h
          exact ofNumber_range h

end Percent

end TransferFees
