import TransferFees.Proofs.PercentErrors

/-!
# Percents that are written

A percent is written in three steps. The hundredths are scaled down, which rounds them to 28 digits;
the result is brought to two decimals, which may not take more than 28 digits; and what comes of it
is written by the rule for all decimal numbers. Rounding may drop digits, and the rule knows a
notation with powers of ten. Neither is ever seen in a percent (`format_exact`):

* 28 digits or fewer are not rounded. The last one counts hundredths, and a number of hundredths is
  written without a power of ten (`Decimal.text_eq`).
* Of more digits the last is dropped for certain, whether rounding carries or not
  (`Decimal.round_of_long`), and two decimals would take one digit too many. So the second step
  signals, and there is no text.
-/

namespace TransferFees

namespace Numeral

theorem digits_of_lt_ten {n : Nat} (h : n < 10) : digits n = [Nat.digitChar n] :=
  Nat.toDigits_of_lt_base h

/-- The last digit is put behind those of a tenth of the number. -/
theorem digits_of_ten_le {n : Nat} (h : 10 ≤ n) :
    digits n = digits (n / 10) ++ [Nat.digitChar (n % 10)] :=
  Nat.toDigits_of_base_le (by decide) h

theorem digits_of_lt_hundred {n : Nat} (h : 10 ≤ n) (hlt : n < 100) : digits n = twoDigits n := by
  have hten : n / 10 % 10 = n / 10 := by omega
  rw [digits_of_ten_le h, digits_of_lt_ten (by omega), twoDigits, hten]
  rfl

/-- The last two digits are those of the number of hundredths that is left. -/
theorem digits_of_hundred_le {n : Nat} (h : 100 ≤ n) :
    digits n = digits (n / 100) ++ twoDigits (n % 100) := by
  have htens : n / 10 % 10 = n % 100 / 10 % 10 := by omega
  have hunits : n % 10 = n % 100 % 10 := by omega
  have hquotient : n / 10 / 10 = n / 100 := Nat.div_div_eq_div_mul n 10 10
  rw [digits_of_ten_le (by omega), digits_of_ten_le (n := n / 10) (by omega), hquotient, htens,
    hunits, List.append_assoc]
  rfl

theorem placeValue_lt {j k : Nat} (h : j < k) : placeValue j < placeValue k :=
  Nat.pow_lt_pow_right (by decide) h

theorem lt_length {n k : Nat} (h : placeValue k ≤ n) : k < length n := by
  rcases Nat.eq_zero_or_pos k with rfl | hk
  · exact length_pos n
  · by_contra hle
    have := (length_le_iff hk).1 (Nat.le_of_not_lt hle)
    omega

end Numeral

theorem le_nearest (n d : Nat) : n / d ≤ nearest n d := by
  simp only [nearest]
  split_ifs <;> omega

/-- Rounding does not get below a whole number of units that the number reaches. -/
theorem le_roundedQuotient {m n k : Nat} (h : m * Numeral.placeValue k ≤ n) :
    m ≤ roundedQuotient n k := by
  rw [roundedQuotient_eq]
  exact ((Nat.le_div_iff_mul_le (Numeral.placeValue_pos k)).2 h).trans (le_nearest _ _)

namespace Decimal

/-! ## Writing any decimal number -/

/-- Digits with a point between the two parts; no point without a digit behind it. -/
def pointed (whole fraction : List Char) : String :=
  String.ofList (if fraction = [] then whole else whole ++ '.' :: fraction)

/-- The digits with a point after the first `k`. Where `k` is not positive, zeros stand in front. -/
def plainText (digits : List Char) (k : Int) : String :=
  if k ≤ 0 then pointed ['0'] (List.replicate (-k).toNat '0' ++ digits)
  else pointed (digits.take k.toNat) (digits.drop k.toNat)

/-- The first digit, a point, the others, and the power of ten that the first digit counts. -/
def scientificText (digits : List Char) (adjusted : Int) : String :=
  pointed (digits.take 1) (digits.drop 1) ++ "E" ++ (if adjusted < 0 then "-" else "+") ++
    Numeral.text adjusted.natAbs

/-- The text of a decimal number, which tells its coefficient and its exponent. Numbers that are far
from one, or whose last digit counts more than one, are written with a power of ten. -/
def text (d : Decimal) : String :=
  (if d.negative then "-" else "") ++
    if d.exponent ≤ 0 ∧ -6 ≤ d.adjusted then
      plainText (Numeral.digits d.coefficient) (d.adjusted + 1)
    else scientificText (Numeral.digits d.coefficient) d.adjusted

/-- The digits of a number of hundredths are split before the last two. -/
theorem plainText_digits (n : Nat) :
    plainText (Numeral.digits n) ((Numeral.digits n).length - 2) =
      Numeral.text (n / 100) ++ "." ++ String.ofList (Numeral.twoDigits (n % 100)) := by
  rw [← String.toList_inj]
  rcases Nat.lt_or_ge n 10 with hten | hten
  · have hwhole : n / 100 = 0 := by omega
    have hzero : n % 100 / 10 % 10 = 0 := by omega
    have hunits : n % 100 % 10 = n := by omega
    simp [plainText, pointed, Numeral.digits_of_lt_ten hten, hwhole, Numeral.twoDigits, hzero,
      hunits, Numeral.text, Numeral.digits_of_lt_ten]
  · rcases Nat.lt_or_ge n 100 with hhundred | hhundred
    · have hwhole : n / 100 = 0 := by omega
      have hrest : n % 100 = n := by omega
      simp [plainText, pointed, Numeral.digits_of_lt_hundred hten hhundred, hwhole, hrest,
        Numeral.twoDigits, Numeral.text, Numeral.digits_of_lt_ten]
    · have hdigits := Numeral.digits_of_hundred_le hhundred
      have hlength : (Numeral.digits n).length = (Numeral.digits (n / 100)).length + 2 := by
        rw [hdigits, List.length_append]
        rfl
      have hpos : 0 < (Numeral.digits (n / 100)).length := Numeral.length_pos _
      have hsplit : (((Numeral.digits n).length : Int) - 2).toNat =
          (Numeral.digits (n / 100)).length := by omega
      rw [plainText, if_neg (by omega), hsplit, hdigits, List.take_left, List.drop_left]
      simp [pointed, Numeral.twoDigits, Numeral.text]

/-- **Hundredths are never written with a power of ten.** -/
theorem text_eq {d : Decimal} (h : d.exponent = -2) : d.text = d.hundredthsText := by
  have hlength := Numeral.length_pos d.coefficient
  have hplain : d.exponent ≤ 0 ∧ -6 ≤ d.adjusted := by
    rw [adjusted]
    omega
  have hpoint : d.adjusted + 1 = ((Numeral.digits d.coefficient).length : Int) - 2 := by
    rw [adjusted, h, Numeral.length]
    omega
  rw [text, if_pos hplain, hpoint, plainText_digits, hundredthsText]
  simp [String.append_assoc]

/-! ## More digits than the precision allows -/

section
variable {p : Precision} {d : Decimal}

/-- **A number with too many digits** keeps as many as the precision allows. They begin where its
own begin, or one place before if rounding has carried over all of them. -/
theorem round_of_long (hp : 0 < p.digits) (hleast : p.leastExponent ≤ d.exponent)
    (hlong : p.digits < Numeral.length d.coefficient) :
    Numeral.placeValue (p.digits - 1) ≤ (d.round p).coefficient ∧
      Numeral.length (d.round p).coefficient ≤ p.digits ∧ d.exponent < (d.round p).exponent ∧
      (d.round p).adjusted ≤ d.adjusted + 1 := by
  have hplace : d.lastPlace p = d.exponent + Numeral.length d.coefficient - p.digits := by
    rw [lastPlace]
    omega
  have hfirst : Numeral.placeValue (p.digits - 1) ≤ (d.roundAt (d.lastPlace p)).coefficient := by
    refine le_roundedQuotient ?_
    have hnonzero : d.coefficient ≠ 0 := by
      rintro hzero
      have hone : Numeral.length 0 = 1 := rfl
      rw [hzero, hone] at hlong
      omega
    have hplaces : Numeral.placeValue (p.digits - 1) *
        Numeral.placeValue (d.lastPlace p - d.exponent).toNat =
          Numeral.placeValue (Numeral.length d.coefficient - 1) := by
      refine (Nat.pow_add 10 _ _).symm.trans (congrArg Numeral.placeValue ?_)
      omega
    rw [hplaces]
    exact Numeral.placeValue_le hnonzero
  -- the digits that are left, and the place where rounding has put the last of them
  obtain ⟨hmost, hfew, hexponent⟩ :
      Numeral.placeValue (p.digits - 1) ≤ (d.round p).coefficient ∧
        Numeral.length (d.round p).coefficient ≤ p.digits ∧
        ((d.round p).exponent = d.lastPlace p ∨ (d.round p).exponent = d.lastPlace p + 1) := by
    rw [d.round_of_lt (by omega)]
    dsimp only
    split
    · rename_i hcarry
      have hten : Numeral.placeValue p.digits / 10 = Numeral.placeValue (p.digits - 1) := by
        rw [← Nat.sub_add_cancel hp, Numeral.placeValue_succ, Nat.mul_div_cancel_left _ (by decide)]
        rfl
      dsimp only
      rw [d.coefficient_roundAt hp hcarry, hten, Numeral.length_le_iff hp]
      exact ⟨Nat.le_refl _, Numeral.placeValue_lt (by omega), .inr rfl⟩
    · rename_i hfew
      exact ⟨hfirst, Nat.le_of_not_lt hfew, .inl rfl⟩
  refine ⟨hmost, hfew, by omega, ?_⟩
  rw [adjusted, adjusted]
  omega

/-- One place more than the digits that are left takes one digit too many. -/
theorem quantize?_round_of_long (hp : 0 < p.digits) (hleast : p.leastExponent ≤ d.exponent)
    (hlong : p.digits < Numeral.length d.coefficient) :
    (d.round p).quantize? p d.exponent = none := by
  obtain ⟨hmost, -, hexponent, -⟩ := round_of_long hp hleast hlong
  have htoo : p.digits < Numeral.length ((d.round p).coefficient *
      Numeral.placeValue ((d.round p).exponent - d.exponent).toNat) := by
    refine Numeral.lt_length ?_
    have hplaces : Numeral.placeValue p.digits =
        Numeral.placeValue (p.digits - 1) * Numeral.placeValue 1 := by
      refine Eq.trans (congrArg Numeral.placeValue ?_) (Nat.pow_add 10 _ _)
      omega
    rw [hplaces]
    exact Nat.mul_le_mul hmost (Numeral.placeValue_mono (by omega))
  simp only [quantize?, Int.le_of_lt hexponent, if_true, if_neg (Nat.not_le.2 htoo)]

end

end Decimal

namespace Number

/-- The number written to a last digit that counts `10 ^ e`. An infinity has no last digit. -/
def quantize? (e : Int) : Number → Except Signal Number
  | .finite d =>
    match d.quantize? .standard e with
    | some written => .ok (.finite written)
    | none => .error .invalidOperation
  | .infinite _ => .error .invalidOperation
  | .notANumber negative => .ok (.notANumber negative)

/-- The text of a number. -/
def text : Number → String
  | .finite d => d.text
  | .infinite negative => (if negative then "-" else "") ++ "Infinity"
  | .notANumber negative => (if negative then "-" else "") ++ "NaN"

end Number

namespace Percent

/-- The text of a percent given in hundredths, by operations that signal. -/
def formatSignalling (hundredths : Int) : Except Signal String := do
  let scaled ← (Number.finite (.ofInt hundredths)).scale? (-places)
  let written ← scaled.quantize? (-places)
  return written.text

/-- The text is that of `z` hundredths: a minus sign below zero and no sign else, the whole part
without needless zeros, a point, and two digits. -/
def TellsHundredths (text : String) (z : Int) : Prop :=
  ∃ whole decimals, text = (if z < 0 then "-" else "") ++ whole ++ "." ++ decimals ∧
    Numeral.IsCanonical whole (z.natAbs / 100) ∧ decimals.length = 2 ∧
    Numeral.isNumeral decimals.toList = true ∧ Numeral.value decimals.toList = z.natAbs % 100

section
variable {z : Int}

/-- The text in hundredths tells them: it is made of the parts that are asked for. -/
theorem tellsHundredths_hundredthsText (z : Int) :
    TellsHundredths (Decimal.hundredthsText ⟨z < 0, z.natAbs, -2⟩) z := by
  refine ⟨Numeral.text (z.natAbs / 100), String.ofList (Numeral.twoDigits (z.natAbs % 100)), ?_,
    Numeral.isCanonical_text _, ?_, ?_, ?_⟩
  · simp [Decimal.hundredthsText]
  · simp [Numeral.twoDigits]
  · rw [String.toList_ofList, Numeral.isNumeral_iff]
    exact ⟨by simp [Numeral.twoDigits], fun c => isDigit_of_mem_twoDigits⟩
  · rw [String.toList_ofList, value_twoDigits]
    omega

theorem shift_ofInt (z : Int) :
    (Decimal.ofInt z).shift (-places) = ⟨z < 0, z.natAbs, -2⟩ := rfl

theorem leastExponent_le : Precision.standard.leastExponent ≤ -2 := by decide

/-- Scaling signals nothing but an overflow. -/
theorem scale?_of_adjusted_le {d : Decimal} {k : Int}
    (h : ((d.shift k).round .standard).adjusted ≤ Number.greatestAdjusted) :
    (Number.finite d).scale? k = .ok (.finite ((d.shift k).round .standard)) :=
  if_neg fun hlarge => Int.not_lt.2 h hlarge.2

/-- Up to 28 digits none of the steps changes the number. -/
theorem formatSignalling_of_lt (h : z.natAbs < Numeral.placeValue 28) :
    formatSignalling z = .ok (Decimal.hundredthsText ⟨z < 0, z.natAbs, -2⟩) := by
  have hlength : Numeral.length z.natAbs ≤ Precision.standard.digits :=
    (Numeral.length_le_iff (by decide)).2 h
  have hround : (Decimal.mk (z < 0) z.natAbs (-2)).round .standard = ⟨z < 0, z.natAbs, -2⟩ :=
    Decimal.round_eq_self leastExponent_le hlength
  have hscale : (Number.finite (.ofInt z)).scale? (-places) =
      .ok (.finite ⟨z < 0, z.natAbs, -2⟩) := by
    have hadjusted : (Decimal.mk (z < 0) z.natAbs (-2)).adjusted ≤ Number.greatestAdjusted := by
      simp only [Decimal.adjusted, Number.greatestAdjusted, Precision.standard] at hlength ⊢
      omega
    rw [scale?_of_adjusted_le (by rwa [shift_ofInt, hround]), shift_ofInt, hround]
  have hquantize : (Number.finite ⟨z < 0, z.natAbs, -2⟩).quantize? (-places) =
      .ok (.finite ⟨z < 0, z.natAbs, -2⟩) := by
    have hsame : (Decimal.mk (z < 0) z.natAbs (-2)).quantize? .standard (-places) =
        some ⟨z < 0, z.natAbs, -2⟩ := Decimal.quantize?_eq_self hlength
    simp only [Number.quantize?, hsame]
  simp only [formatSignalling, hscale, hquantize, bind, Except.bind, pure, Except.pure]
  rw [Number.text, Decimal.text_eq rfl]

/-- Of more digits there is no writing with two decimals. -/
theorem quantize?_of_le (h : Numeral.placeValue 28 ≤ z.natAbs) :
    (((Decimal.ofInt z).shift (-places)).round .standard).quantize? .standard (-places) = none := by
  have hlong : Precision.standard.digits < Numeral.length z.natAbs := Numeral.lt_length h
  rw [shift_ofInt]
  exact Decimal.quantize?_round_of_long (by decide) leastExponent_le hlong

theorem format?_of_le (h : Numeral.placeValue 28 ≤ z.natAbs) : format? z = none := by
  rw [format?, quantize?_of_le h]
  rfl

/-- Scaling is still possible here, so it is the second step that signals. -/
theorem formatSignalling_of_le (h : Numeral.placeValue 28 ≤ z.natAbs)
    (hlt : z.natAbs < Numeral.placeValue 1000000) :
    formatSignalling z = .error .invalidOperation := by
  have hlong : Precision.standard.digits < Numeral.length z.natAbs := Numeral.lt_length h
  have hscale : (Number.finite (.ofInt z)).scale? (-places) =
      .ok (.finite (((Decimal.ofInt z).shift (-places)).round .standard)) := by
    refine scale?_of_adjusted_le ?_
    obtain ⟨-, -, -, hadjusted⟩ := Decimal.round_of_long (p := .standard)
      (d := ⟨z < 0, z.natAbs, -2⟩) (by decide) leastExponent_le hlong
    have hlength : Numeral.length z.natAbs ≤ 1000000 := (Numeral.length_le_iff (by decide)).2 hlt
    rw [shift_ofInt]
    refine hadjusted.trans ?_
    simp only [Decimal.adjusted, Number.greatestAdjusted]
    omega
  simp only [formatSignalling, hscale, Number.quantize?, quantize?_of_le h, bind, Except.bind]

end

/-- **Writing is exact, or there is no text.** A percent of up to 28 digits is written with two
decimals and without rounding, in plain digits. No longer one is written, and as far as it can be
scaled at all, the operation that signals is the one that would have to drop digits. -/
theorem format_exact (z : Int) :
    (z.natAbs < Numeral.placeValue 28 →
      ∃ text, format? z = some text ∧ formatSignalling z = .ok text ∧ TellsHundredths text z) ∧
    (Numeral.placeValue 28 ≤ z.natAbs →
      format? z = none ∧
        (z.natAbs < Numeral.placeValue 1000000 →
          formatSignalling z = .error .invalidOperation)) := by
  refine ⟨fun h => ?_, fun h => ⟨format?_of_le h, formatSignalling_of_le h⟩⟩
  exact ⟨_, format?_eq h, formatSignalling_of_lt h, tellsHundredths_hundredthsText z⟩

/-- The least percent of 28 digits has a text, and the first one of 29 digits has none, although
its last 28 digits are zeros. -/
theorem format_exact_about_the_threshold :
    let nines : Int := -9999999999999999999999999999
    let ten : Int := 10000000000000000000000000000
    nines.natAbs < Numeral.placeValue 28 ∧ (∃ text, format? nines = some text ∧
      formatSignalling nines = .ok text ∧ TellsHundredths text nines) ∧
      Numeral.placeValue 28 ≤ ten.natAbs ∧ ten.natAbs < Numeral.placeValue 1000000 ∧
      format? ten = none ∧ formatSignalling ten = .error .invalidOperation := by
  intro nines ten
  have hnines : nines.natAbs < Numeral.placeValue 28 := by decide
  have hten : Numeral.placeValue 28 ≤ ten.natAbs := by decide
  have hscaled : ten.natAbs < Numeral.placeValue 1000000 :=
    Nat.lt_of_le_of_lt (by decide) (Numeral.placeValue_lt (j := 28) (by decide))
  obtain ⟨hnone, hsignal⟩ := (format_exact ten).2 hten
  exact ⟨hnines, (format_exact nines).1 hnines, hten, hscaled, hnone, hsignal hscaled⟩

end Percent

end TransferFees
