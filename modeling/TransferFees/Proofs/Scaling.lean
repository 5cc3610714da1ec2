import TransferFees.Proofs.DecimalValues

/-!
# From a number to hundredths

The hundredths of a percent are a hundred times its value, and what lies below a whole one is cut
off. But the multiplication rounds to 28 digits first. A number with more digits can lie so little
below a whole number of hundredths that it is rounded up to it before anything is cut off
(`RoundsOver`). Then the next number of hundredths is what counts, and the percent that is read is
greater than the one that was written.

`parse_scaled` says which verdict a text gets in either case. With 28 digits or fewer nothing is
rounded (`not_roundsOver_of_length_le`).
-/

namespace TransferFees.Percent

/-- The verdict on a whole number of hundredths. -/
def verdict (n : Int) : Except ParseError Int :=
  if n < least then .error .tooLow else if greatest < n then .error .tooHigh else .ok n

/-- How many digits a number has before its point; below one it has none. -/
def wholeDigits (n : Nat) : Nat := if n = 0 then 0 else Numeral.length n

/-- What the last of 28 digits counts. -/
def lastUnit (x : ℚ) : ℚ := 10 ^ ((wholeDigits ⌊x⌋₊ : ℤ) - 28)

/-- The hundredths `x` are short of the next whole number by half a unit of the last digit at most,
and the whole number below is not above the range. -/
def RoundsOver (x : ℚ) : Prop := ⌊x⌋ ≤ greatest ∧ ⌊x⌋ + 1 ≤ x + lastUnit x / 2

/-! ## Half a unit more -/

section
variable {x u : ℚ}

/-- Half a unit more gets over the next whole number, and not over two, where the unit is below one.
-/
theorem floor_add_half_of_le (hu : u < 1) (h : ⌊x⌋ + 1 ≤ x + u / 2) :
    ⌊x + u / 2⌋ = ⌊x⌋ + 1 := by
  have hx := Int.lt_floor_add_one x
  rw [Int.floor_eq_iff]
  push_cast
  constructor <;> linarith

theorem floor_add_half_of_not_le (hu : 0 < u) (h : ¬⌊x⌋ + 1 ≤ x + u / 2) :
    ⌊x + u / 2⌋ = ⌊x⌋ := by
  have hx := Int.floor_le x
  rw [Int.floor_eq_iff]
  constructor <;> linarith

/-- A number that is far from the next whole one does not reach it with half a unit more. -/
theorem not_le_of_lt (hx : 0 ≤ x) (hx' : x < 1 / 10) (hu : u ≤ 1) : ¬⌊x⌋ + 1 ≤ x + u / 2 := by
  have hfloor : ⌊x⌋ = 0 := Int.floor_eq_zero_iff.2 ⟨hx, by linarith⟩
  rw [hfloor]
  intro h
  push_cast at h
  linarith

end

/-! ## The last of 28 digits -/

section
variable {x : ℚ} {a : ℤ}

/-- The digits before the point are counted by the place of the first digit. -/
theorem wholeDigits_of_bounds (hlower : 10 ^ a ≤ x) (hupper : x < 10 ^ (a + 1)) (hone : 1 ≤ x) :
    (wholeDigits ⌊x⌋₊ : ℤ) = a + 1 := by
  have ha : 0 ≤ a := by
    by_contra hneg
    have hle : (10 : ℚ) ^ (a + 1) ≤ 1 := zpow_le_one_of_nonpos₀ (by norm_num) (by omega)
    linarith
  obtain ⟨k, rfl⟩ := Int.eq_ofNat_of_zero_le ha
  have hx : 0 ≤ x := by linarith
  have hge : Numeral.placeValue k ≤ ⌊x⌋₊ := by
    rw [Nat.le_floor_iff hx, Numeral.cast_placeValue]
    exact_mod_cast hlower
  have hlt : ⌊x⌋₊ < Numeral.placeValue (k + 1) := by
    rw [Nat.floor_lt hx, Numeral.cast_placeValue]
    exact_mod_cast hupper
  have hzero : ⌊x⌋₊ ≠ 0 := by
    have := Numeral.placeValue_pos k
    omega
  have hle : Numeral.length ⌊x⌋₊ ≤ k + 1 := (Numeral.length_le_iff (by omega)).2 hlt
  have hlength : k < Numeral.length ⌊x⌋₊ := by
    by_contra hshort
    have hmono := Numeral.placeValue_mono (Nat.not_lt.1 hshort)
    have := Numeral.lt_placeValue_length ⌊x⌋₊
    omega
  rw [wholeDigits, if_neg hzero]
  omega

theorem lastUnit_of_lt_one (h : x < 1) : lastUnit x = 10 ^ (-28 : ℤ) := by
  rw [lastUnit, Nat.floor_eq_zero.2 h]
  rfl

/-- Where calculations round, a number with its first digit at the place `a` is rounded at its 28th
digit. A number so small that it is rounded earlier is far from one. -/
theorem le_add_lastUnit_iff (hlower : 10 ^ a ≤ x) (hupper : x < 10 ^ (a + 1)) (ha : a ≤ 4) :
    ⌊x⌋ + 1 ≤ x + 10 ^ max Precision.standard.leastExponent (a - 27) / 2 ↔
      ⌊x⌋ + 1 ≤ x + lastUnit x / 2 := by
  have hleast : Precision.standard.leastExponent = -1000026 := by decide
  rw [hleast]
  rcases le_or_gt 1 x with hone | hone
  · have hdigits := wholeDigits_of_bounds hlower hupper hone
    have hplace : max (-1000026) (a - 27) = (wholeDigits ⌊x⌋₊ : ℤ) - 28 := by omega
    rw [lastUnit, hplace]
  · rw [lastUnit_of_lt_one hone]
    rcases lt_or_ge a (-1) with hsmall | hlarge
    · have hx : 0 ≤ x := le_trans (by positivity) hlower
      have hx' : x < 1 / 10 := by
        refine hupper.trans_le ?_
        refine (zpow_le_zpow_right₀ (by norm_num) (show a + 1 ≤ -1 by omega)).trans ?_
        norm_num
      refine iff_of_false (not_le_of_lt hx hx' ?_) (not_le_of_lt hx hx' ?_)
      · exact zpow_le_one_of_nonpos₀ (by norm_num) (by omega)
      · exact zpow_le_one_of_nonpos₀ (by norm_num) (by norm_num)
    · have ha : a = -1 := by
        by_contra hne
        have hle : (10 : ℚ) ^ (0 : ℤ) ≤ 10 ^ a := zpow_le_zpow_right₀ (by norm_num) (by omega)
        rw [zpow_zero] at hle
        linarith
      subst ha
      norm_num

end

/-! ## The verdict on a number -/

theorem ofNumber_of_not_negative {d : Decimal} (hsign : d.negative = false) :
    ofNumber (.finite d) =
      if d.reaches greatest.toNat then .error .tooHigh else verdict (hundredths d) := by
  simp [ofNumber, hsign, verdict]

theorem verdict_eq_ok_iff {n p : Int} :
    verdict n = .ok p ↔ p = n ∧ least ≤ n ∧ n ≤ greatest := by
  unfold verdict
  split_ifs <;> simp_all [eq_comm]
  all_goals omega

theorem verdict_eq_tooLow_iff {n : Int} : verdict n = .error .tooLow ↔ n < least := by
  unfold verdict
  split_ifs <;> simp_all

theorem verdict_eq_tooHigh_iff {n : Int} : verdict n = .error .tooHigh ↔ greatest < n := by
  unfold verdict
  split_ifs <;> simp_all [least, greatest]
  all_goals omega

/-- A verdict tells no more than the side of the range. -/
theorem verdict_ne_error {n : Int} {e : ParseError} (hlow : e ≠ .tooLow) (hhigh : e ≠ .tooHigh) :
    verdict n ≠ .error e := by
  unfold verdict
  split_ifs <;> simp_all [eq_comm]

theorem verdict_cases (n : Int) : verdict n = .error .tooLow ∨ verdict n = .error .tooHigh ∨
    ∃ p, 1 ≤ p ∧ p ≤ 1000 ∧ verdict n = .ok p := by
  unfold verdict
  split_ifs with hlow hhigh
  · simp
  · simp
  · refine .inr (.inr ⟨n, ?_, ?_, rfl⟩)
    · simpa [least] using hlow
    · simpa [greatest] using hhigh

/-- Neighbours that are not both above the range have different verdicts. -/
theorem verdict_succ_ne {n : Int} (hn : 0 ≤ n) (h : n ≤ greatest) : verdict (n + 1) ≠ verdict n := by
  intro heq
  rw [verdict, verdict] at heq
  simp only [greatest] at h
  split_ifs at heq <;> simp_all [least, greatest] <;> omega

section
variable {d : Decimal}

/-- The first comparison is with ten percent, in hundredths that are not scaled yet. -/
theorem reaches_greatest_iff : d.reaches greatest.toNat = true ↔ 1000 ≤ d.size :=
  Decimal.reaches_iff

theorem size_shift_places (d : Decimal) : (d.shift places).size = 100 * d.size := by
  rw [Decimal.size_shift, mul_comm]
  norm_num [places]

/-- Below the ceiling rounding takes place far behind the point. -/
theorem lastPlace_of_not_reaches (hzero : d.coefficient ≠ 0) (h : ¬d.reaches greatest.toNat = true) :
    d.adjusted + 2 ≤ 4 ∧ (d.shift places).lastPlace .standard =
      max Precision.standard.leastExponent (d.adjusted + 2 - 27) := by
  rw [reaches_greatest_iff, not_le] at h
  have hlt : (10 : ℚ) ^ d.adjusted < 10 ^ (3 : ℤ) := by
    refine (d.le_size hzero).trans_lt (h.trans_le ?_)
    norm_num
  have hadjusted := (zpow_lt_zpow_iff_right₀ (by norm_num)).1 hlt
  refine ⟨by omega, ?_⟩
  rw [Decimal.lastPlace_shift, Decimal.adjusted]
  congr 1
  simp only [places, Precision.standard]
  omega

theorem hundredths_zero (h : d.coefficient = 0) : hundredths d = 0 := by
  have hshift : (d.shift places).coefficient = 0 := h
  rw [hundredths, Decimal.truncate_eq, Decimal.size_round _ (by decide), hshift]
  simp [nearest]

/-- What is left of a number below the ceiling: its hundredths and half a unit of the place where
they are rounded, cut off. -/
theorem hundredths_eq (hzero : d.coefficient ≠ 0) (h : ¬d.reaches greatest.toNat = true) :
    (hundredths d : Int) =
      ⌊100 * d.size + 10 ^ max Precision.standard.leastExponent (d.adjusted + 2 - 27) / 2⌋ := by
  obtain ⟨hsmall, hplace⟩ := lastPlace_of_not_reaches hzero h
  have hbehind : (d.shift places).lastPlace .standard < 0 := by
    have hleast : Precision.standard.leastExponent = -1000026 := by decide
    omega
  rw [hundredths, Decimal.truncate_round _ (by decide) hbehind, size_shift_places, hplace]
  refine Int.natCast_floor_eq_floor ?_
  have hsize := d.size_nonneg
  positivity

/-- The hundredths of a number below the ceiling, or the next ones if it is short of them by half a
unit of the last digit at most. -/
theorem hundredths_scaled (hzero : d.coefficient ≠ 0) (h : ¬d.reaches greatest.toNat = true) :
    let x := 100 * d.size
    (⌊x⌋ + 1 ≤ x + lastUnit x / 2 → (hundredths d : Int) = ⌊x⌋ + 1) ∧
      (¬⌊x⌋ + 1 ≤ x + lastUnit x / 2 → (hundredths d : Int) = ⌊x⌋) := by
  intro x
  -- the first digit of the hundredths stands two places further up than that of the number
  have hlower : (10 : ℚ) ^ (d.adjusted + 2) ≤ x := by
    have hsize := d.le_size hzero
    rw [zpow_add₀ (by norm_num)]
    norm_num [x]
    linarith
  have hupper : x < 10 ^ (d.adjusted + 2 + 1) := by
    have hsize := d.size_lt
    rw [add_right_comm, zpow_add₀ (by norm_num)]
    norm_num [x]
    linarith
  obtain ⟨hsmall, -⟩ := lastPlace_of_not_reaches hzero h
  have hplace := le_add_lastUnit_iff hlower hupper hsmall
  have hunit : (10 : ℚ) ^ max Precision.standard.leastExponent (d.adjusted + 2 - 27) < 1 := by
    have hleast : Precision.standard.leastExponent = -1000026 := by decide
    exact zpow_lt_one_of_neg₀ (by norm_num) (by omega)
  rw [hundredths_eq hzero h, ← hplace]
  exact ⟨floor_add_half_of_le hunit, floor_add_half_of_not_le (by positivity)⟩

/-- Less than a tenth of a hundredth never rounds over. -/
theorem not_roundsOver_of_lt {x : ℚ} (hx : 0 ≤ x) (h : x < 1 / 10) : ¬RoundsOver x := by
  rintro ⟨-, hover⟩
  refine not_le_of_lt hx h ?_ hover
  rw [lastUnit_of_lt_one (by linarith)]
  exact zpow_le_one_of_nonpos₀ (by norm_num) (by norm_num)

/-- **The verdict on a number** is that on its hundredths, or on the next ones if it rounds over. -/
theorem ofNumber_scaled (hsign : d.negative = false) :
    let x := 100 * d.size
    (RoundsOver x → ofNumber (.finite d) = verdict (⌊x⌋ + 1)) ∧
      (¬RoundsOver x → ofNumber (.finite d) = verdict ⌊x⌋) := by
  intro x
  rw [ofNumber_of_not_negative hsign]
  by_cases hceiling : d.reaches greatest.toNat = true
  · have hlarge : greatest < ⌊x⌋ := by
      have hreaches : 1000 ≤ d.size := reaches_greatest_iff.1 hceiling
      rw [← Int.add_one_le_iff, Int.le_floor]
      norm_num [greatest, x]
      linarith
    rw [if_pos hceiling]
    refine ⟨fun hover => absurd hover.1 (not_le.2 hlarge), fun _ => ?_⟩
    exact (verdict_eq_tooHigh_iff.2 hlarge).symm
  rw [if_neg hceiling]
  by_cases hzero : d.coefficient = 0
  · have hnone : x = 0 := by simp [x, Decimal.size, hzero]
    rw [hundredths_zero hzero, hnone, Int.floor_zero]
    exact ⟨fun hover => absurd hover (not_roundsOver_of_lt le_rfl (by norm_num)), fun _ => rfl⟩
  obtain ⟨hover, hbelow⟩ := hundredths_scaled hzero hceiling
  constructor
  · rintro ⟨-, hle⟩
    rw [hover hle]
  · intro hnot
    by_cases hle : ⌊x⌋ + 1 ≤ x + lastUnit x / 2
    · -- above the range it makes no difference
      have hlarge : greatest < ⌊x⌋ := by
        by_contra hrange
        exact hnot ⟨not_lt.1 hrange, hle⟩
      rw [hover hle, verdict_eq_tooHigh_iff.2 hlarge,
        verdict_eq_tooHigh_iff.2 (hlarge.trans (lt_add_one _))]
    · rw [hbelow hle]

/-! ## Few digits -/

/-- **With 28 digits or fewer nothing is rounded over.** -/
theorem not_roundsOver_of_length_le (h : Numeral.length d.coefficient ≤ 28) :
    ¬RoundsOver (100 * d.size) := by
  have hsize := d.size_nonneg
  rcases lt_or_ge (100 * d.size) (1 / 10) with hsmall | hlarge
  · exact not_roundsOver_of_lt (by positivity) hsmall
  rintro ⟨hrange, hle⟩
  have hzero : d.coefficient ≠ 0 := by
    intro hzero
    norm_num [Decimal.size, hzero] at hlarge
  have hceiling : ¬d.reaches greatest.toNat = true := by
    rw [reaches_greatest_iff, not_le]
    have hx := Int.lt_floor_add_one (100 * d.size)
    have hfloor : (⌊100 * d.size⌋ : ℚ) ≤ 1000 := by exact_mod_cast hrange
    linarith
  -- the digits reach from a tenth or further up to no further than 28 places down
  have hplace : Precision.standard.leastExponent ≤ (d.shift places).exponent := by
    have hfirst : (10 : ℚ) ^ (-3 : ℤ) < 10 ^ (d.adjusted + 1) := by
      refine lt_of_le_of_lt ?_ d.size_lt
      norm_num
      linarith
    have hadjusted := (zpow_lt_zpow_iff_right₀ (by norm_num)).1 hfirst
    have hleast : Precision.standard.leastExponent = -1000026 := by decide
    simp only [Decimal.adjusted] at hadjusted
    simp only [Decimal.shift, places]
    omega
  have hkept : (d.shift places).round .standard = d.shift places := Decimal.round_eq_self hplace h
  have hcut : (hundredths d : Int) = ⌊100 * d.size⌋ := by
    rw [hundredths, hkept, Decimal.truncate_eq, size_shift_places]
    exact Int.natCast_floor_eq_floor (by positivity)
  have hnext := (hundredths_scaled hzero hceiling).1 hle
  omega

end

/-! ## Texts -/

theorem checkDecimals_eq_ok {text : String} (h : (afterPoint text.toList).length ≤ places) :
    checkDecimals text = .ok () := if_neg (Nat.not_lt.2 h)

theorem parse_eq_ofNumber {text : String} {number : Number}
    (hplaces : (afterPoint text.toList).length ≤ places) (hnumber : parseNumber text = .ok number) :
    parse text = ofNumber number := by
  simp only [parse, checkDecimals_eq_ok hplaces, hnumber, bind, Except.bind]

/-- The empty text names no number, so the check for it takes none away. -/
theorem parseNumber_eq_ok_iff {text : String} {number : Number} :
    parseNumber text = .ok number ↔ Number.ofLiteral? text.toList = some number := by
  rw [parseNumber]
  by_cases hnil : text.toList = []
  · simp [hnil, Number.ofLiteral?, Number.ofDigits?, Number.takeSign, Number.takeDigits]
  · rw [if_neg hnil]
    split <;> simp_all

/-- **The verdict on a text** whose number is finite and has no minus sign: that on its hundredths,
cut off to a whole number, unless the number has more than 28 digits and rounds over. -/
theorem parse_scaled {text : String} {d : Decimal}
    (hplaces : (afterPoint text.toList).length ≤ places)
    (hnumber : parseNumber text = .ok (.finite d)) (hsign : d.negative = false) :
    let x := 100 * d.value
    (parse text = verdict ⌊x⌋ ↔ ¬RoundsOver x) ∧
      (RoundsOver x → parse text = verdict (⌊x⌋ + 1)) ∧
      (Numeral.length d.coefficient ≤ 28 → ¬RoundsOver x) := by
  intro x
  have hparse : parse text = ofNumber (.finite d) := by
    simp only [parse, checkDecimals_eq_ok hplaces, hnumber, bind, Except.bind]
  have hx : x = 100 * d.size := by simp [x, Decimal.value, hsign]
  obtain ⟨hover, hbelow⟩ := ofNumber_scaled hsign
  rw [hparse, hx]
  refine ⟨⟨fun heq hround => ?_, hbelow⟩, hover, not_roundsOver_of_length_le⟩
  have hnonneg : 0 ≤ ⌊100 * d.size⌋ := by
    have hsize := d.size_nonneg
    rw [Int.floor_nonneg]
    positivity
  exact verdict_succ_ne hnonneg hround.1 ((hover hround).symm.trans heq)

/-- Twenty-eight digits, the last of which keep the percent below 10.01. They are cut off. -/
theorem parse_scaled_twenty_eight_digits :
    let text := "1000999999999999999999999999e-26"
    let d : Decimal := ⟨false, 1000999999999999999999999999, -26⟩
    (afterPoint text.toList).length ≤ places ∧ parseNumber text = .ok (.finite d) ∧
      d.negative = false ∧ ⌊100 * d.value⌋ = 1000 ∧ parse text = verdict ⌊100 * d.value⌋ := by
  intro text d
  have hplaces : (afterPoint text.toList).length ≤ places := by decide
  have hnumber : parseNumber text = .ok (.finite d) := by decide +kernel
  have hfloor : ⌊100 * d.value⌋ = 1000 := by
    rw [Int.floor_eq_iff]
    norm_num [d, Decimal.value, Decimal.size]
  have hscaled := parse_scaled hplaces hnumber rfl
  exact ⟨hplaces, hnumber, rfl, hfloor, hscaled.1.2 (hscaled.2.2 (by decide))⟩

/-- One digit more, and a percent below the least one is accepted as the least one. -/
theorem parse_of_twenty_nine_nines :
    let text := "99999999999999999999999999999e-31"
    let d : Decimal := ⟨false, 99999999999999999999999999999, -31⟩
    (afterPoint text.toList).length ≤ places ∧ parseNumber text = .ok (.finite d) ∧
      d.negative = false ∧ ⌊100 * d.value⌋ = 0 ∧ parse text = .ok 1 ∧
      parse text ≠ verdict ⌊100 * d.value⌋ := by
  intro text d
  have hfloor : ⌊100 * d.value⌋ = 0 := by
    rw [Int.floor_eq_iff]
    norm_num [d, Decimal.value, Decimal.size]
  have hparse : parse text = .ok 1 := by decide +kernel
  refine ⟨by decide, by decide +kernel, rfl, hfloor, hparse, ?_⟩
  rw [hfloor, hparse]
  decide

end TransferFees.Percent
