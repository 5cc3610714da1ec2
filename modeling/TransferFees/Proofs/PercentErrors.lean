import TransferFees.Proofs.FeeState
import TransferFees.Proofs.PercentTexts

/-!
# How reading a percent fails

A text that is no fee percent is refused with one of five errors. What the checks ask for overlaps,
and it is their order that tells which error a text gets: the characters after the first point are
counted before anything else, then comes the grammar, and of a numeral first the sign and then the
size (`Outcomes`).

Nothing else can go wrong. The operations on decimal numbers do not always have a result: a number
may be too large or too small to be made, there is no order with what is not a number, a product may
be too large, an infinity has no whole part. They signal it. `parseSignalling` takes the steps of
reading by operations that signal. The one signal there is comes from making a number and is
answered on the spot; the checks see to it that there is no other (`parseSignalling_eq`).

So whoever may change the percent gets it changed, or one of the errors and no change
(`parse_outcomes`).
-/

namespace TransferFees

/-! ## Operations that signal -/

/-- What an operation gives that has no result. -/
inductive Signal where
  /-- The operands are not what the operation is for. -/
  | invalidOperation
  /-- The result is too large. -/
  | overflow
  deriving DecidableEq, Repr

namespace Number

/-- The number as it is, if it lies in the range of exponents. -/
def construct? : Number → Except Signal Number
  | .finite d =>
    if ExponentRange.standard.greatestAdjusted < d.adjusted ∨
        d.exponent < ExponentRange.standard.leastExponent then .error .invalidOperation
    else .ok (.finite d)
  | number => .ok number

/-- What is read in place of a number outside the range: an infinity if it is too large, else
zero. -/
def outside : Number → Number
  | .finite d =>
    if d.coefficient ≠ 0 ∧ ExponentRange.standard.greatestAdjusted < d.adjusted then
      .infinite d.negative
    else .finite ⟨d.negative, 0, 0⟩
  | number => number

/-- The greatest adjusted exponent that a result may have. -/
def greatestAdjusted : Int := 999999

/-- Whether the number stands for none. -/
def isNotANumber : Number → Bool
  | .notANumber _ => true
  | _ => false

/-- Whether the number is an infinity. -/
def isInfinite : Number → Bool
  | .infinite _ => true
  | _ => false

/-- Whether the number is `n` or more, for a positive `n`. -/
def atLeast? (n : Nat) : Number → Except Signal Bool
  | .finite d => .ok (!d.negative && d.reaches n)
  | .infinite negative => .ok !negative
  | .notANumber _ => .error .invalidOperation

/-- The number times `10 ^ k`, rounded. -/
def scale? (k : Int) : Number → Except Signal Number
  | .finite d =>
    let scaled := (d.shift k).round .standard
    if scaled.coefficient ≠ 0 ∧ greatestAdjusted < scaled.adjusted then .error .overflow
    else .ok (.finite scaled)
  | number => .ok number

/-- The number, cut to a whole one. -/
def toInt? : Number → Except Signal Int
  | .finite d => .ok (if d.negative then -(d.truncate : Int) else d.truncate)
  | .infinite _ => .error .overflow
  | .notANumber _ => .error .invalidOperation

/-! ## Numbers as they are written -/

/-- The number that digits, point and exponent stand for, in the range of exponents or not. -/
def writtenDigits? (negative : Bool) (cs : List Char) : Option Decimal :=
  let (whole, fraction, rest) := takeDigits cs
  if whole = [] ∧ fraction = [] then none
  else (exponent? rest).map fun e =>
    ⟨negative, Numeral.value (whole ++ fraction), e - fraction.length⟩

/-- The number that a text names, in the range of exponents or not. -/
def written? (cs : List Char) : Option Number :=
  let (negative, body) := takeSign cs
  let word := body.map Char.toLower
  if word = "inf".toList ∨ word = "infinity".toList then some (.infinite negative)
  else if word = "nan".toList then some (.notANumber negative)
  else (writtenDigits? negative body).map .finite

/-- The number with the range of exponents imposed on it. -/
def limited : Number → Number
  | .finite d => ofParts .standard d
  | number => number

/-- To read digits is to take the number as it is written and put the limits on it. -/
theorem ofDigits?_eq_map (negative : Bool) (cs : List Char) :
    ofDigits? negative cs = (writtenDigits? negative cs).map (ofParts .standard) := by
  simp only [ofDigits?, writtenDigits?]
  split
  · rfl
  · rw [Option.map_map]
    rfl

theorem ofLiteral?_eq_map (cs : List Char) : ofLiteral? cs = (written? cs).map limited := by
  simp only [ofLiteral?, written?, ofDigits?_eq_map]
  split_ifs
  · rfl
  · rfl
  · rw [Option.map_map]
    rfl

/-- What is made, or read in place of what cannot be made, is the number that is read. -/
theorem construct?_cases (number : Number) :
    number.construct? = .ok number.limited ∨
      number.construct? = .error .invalidOperation ∧ number.outside = number.limited := by
  cases number with
  | infinite negative => exact .inl rfl
  | notANumber negative => exact .inl rfl
  | finite d =>
      simp only [construct?, limited, ofParts, outside]
      split_ifs <;> simp_all

end Number

namespace Percent

open Number
open Text.Pattern (Matches)

/-! ## Reading by operations that signal -/

/-- How a calculation with signals fails. -/
inductive Failure where
  /-- An operation has signalled. -/
  | signal (s : Signal)
  /-- The text is refused. -/
  | refusal (reason : ParseError)

/-- The fee percent that a number stands for, by operations that signal. -/
def calculate (number : Number) : Except Failure Int :=
  if number.isNotANumber || number.isNegative then .error (.refusal .tooLow)
  else if number.isInfinite then .error (.refusal .tooHigh)
  else do
    let high ← (number.atLeast? greatest.toNat).mapError .signal
    if high then .error (.refusal .tooHigh)
    else
      let scaled ← (number.scale? places).mapError .signal
      let whole ← scaled.toInt?.mapError .signal
      (verdict whole).mapError .refusal

/-- The number that a text names, by operations that signal. A number that cannot be made is
replaced; no other signal is answered. -/
def parseNumberSignalling (text : String) : Except Failure Number :=
  if text.toList = [] then .error (.refusal .emptyText)
  else match written? text.toList with
    | none => .error (.refusal .notANumeral)
    | some number =>
      match number.construct? with
      | .ok number => .ok number
      | .error .invalidOperation => .ok number.outside
      | .error .overflow => .error (.signal .overflow)

/-- The fee percent that a text stands for, by operations that signal. -/
def parseSignalling (text : String) : Except Failure Int := do
  (checkDecimals text).mapError .refusal
  calculate (← parseNumberSignalling text)

/-! ## No signal gets out -/

section
variable {d : Decimal}

/-- What is not too high for the first comparison stays small when it is scaled, so scaling cannot
overflow. -/
theorem hundredths_le (h : ¬d.reaches greatest.toNat = true) : hundredths d ≤ 100000 := by
  by_cases hzero : d.coefficient = 0
  · rw [hundredths_zero hzero]
    omega
  · have hfloor : ⌊100 * d.size⌋ < 100000 := by
      rw [reaches_greatest_iff, not_le] at h
      rw [Int.floor_lt]
      push_cast
      linarith
    -- a number that rounds over counts one hundredth more than its whole part
    obtain ⟨hover, hbelow⟩ := hundredths_scaled hzero h
    by_cases hle : ⌊100 * d.size⌋ + 1 ≤ 100 * d.size + lastUnit (100 * d.size) / 2
    · have hnext := hover hle
      omega
    · have hsame := hbelow hle
      omega

/-- A number below the ceiling is far from the greatest ones, so it can be scaled. -/
theorem scale?_of_not_reaches (h : ¬d.reaches greatest.toNat = true) :
    (Number.finite d).scale? places = .ok (.finite ((d.shift places).round .standard)) := by
  -- the hundredths are the whole part of the scaled number
  have hsmall : ((d.shift places).round .standard).size < 10 ^ (6 : ℤ) := by
    have hwhole := hundredths_le h
    rw [hundredths, Decimal.truncate_eq] at hwhole
    have hlt := Nat.lt_floor_add_one ((d.shift places).round .standard).size
    have hcast : (⌊((d.shift places).round .standard).size⌋₊ : ℚ) ≤ 100000 := by
      exact_mod_cast hwhole
    norm_num
    linarith
  refine if_neg ?_
  rintro ⟨hzero, hlarge⟩
  have hplace := (Decimal.le_size _ hzero).trans_lt hsmall
  have hadjusted := (zpow_lt_zpow_iff_right₀ (by norm_num)).1 hplace
  simp only [greatestAdjusted] at hlarge
  omega

end

theorem negative_round (p : Precision) (d : Decimal) : (d.round p).negative = d.negative := by
  simp only [Decimal.round]
  split_ifs <;> rfl

/-- **No step signals**: each is taken only where the checks before it leave it a result. -/
theorem calculate_eq (number : Number) :
    calculate number = (ofNumber number).mapError .refusal := by
  cases number with
  | notANumber negative => rfl
  | infinite negative => cases negative <;> rfl
  | finite d =>
      by_cases hsign : d.negative = true
      · simp [calculate, ofNumber, isNegative, hsign, Except.mapError]
      · have hpositive : d.negative = false := by simpa using hsign
        rw [ofNumber_of_not_negative hpositive]
        by_cases hceiling : d.reaches greatest.toNat = true
        · simp [calculate, isNotANumber, isNegative, isInfinite, atLeast?, hpositive, hceiling,
            bind, Except.bind, Except.mapError]
        · have hwhole : (Number.finite ((d.shift places).round .standard)).toInt? =
              .ok (hundredths d) := by
            have hshift : (d.shift places).negative = false := hpositive
            simp [toInt?, negative_round, hshift, hundredths]
          simp [calculate, isNotANumber, isNegative, isInfinite, atLeast?, hpositive, hceiling,
            scale?_of_not_reaches hceiling, hwhole, bind, Except.bind, Except.mapError]

/-- A signal of the constructor is caught, so reading a number never ends in one. -/
theorem parseNumberSignalling_eq (text : String) :
    parseNumberSignalling text = (parseNumber text).mapError .refusal := by
  simp only [parseNumberSignalling, parseNumber, ofLiteral?_eq_map]
  split
  · rfl
  · cases written? text.toList with
    | none => rfl
    | some number =>
        rcases number.construct?_cases with hmade | ⟨hsignal, hinstead⟩
        · simp [hmade, Except.mapError]
        · simp [hsignal, hinstead, Except.mapError]

/-- **No signal gets out**: with operations that signal the same outcome is reached. -/
theorem parseSignalling_eq (text : String) :
    parseSignalling text = (parse text).mapError .refusal := by
  simp only [parseSignalling, parse, parseNumberSignalling_eq]
  cases checkDecimals text with
  | error reason => rfl
  | ok u =>
      cases parseNumber text with
      | error reason => rfl
      | ok number => exact calculate_eq number

/-! ## The order of the checks -/

/-- More than two characters follow the first point. -/
def ExceedsPlaces (cs : List Char) : Prop :=
  ∃ front rest, cs = front ++ '.' :: rest ∧ '.' ∉ front ∧ 2 < rest.length

theorem exceedsPlaces_iff {cs : List Char} :
    ExceedsPlaces cs ↔ places < (afterPoint cs).length := by
  constructor
  · rintro ⟨front, rest, rfl, hfront, hlong⟩
    rw [afterPoint_point hfront]
    exact hlong
  · intro hlong
    by_cases hpoint : '.' ∈ cs
    · obtain ⟨front, rest, rfl, hfront⟩ := List.eq_append_cons_of_mem hpoint
      rw [afterPoint_point hfront] at hlong
      exact ⟨front, rest, rfl, hfront, hlong⟩
    · rw [afterPoint_of_not_mem hpoint] at hlong
      simp at hlong

section
variable {text : String}

/-- Decimals are counted first, whatever else is wrong with the text. -/
theorem parse_of_exceedsPlaces (h : ExceedsPlaces text.toList) :
    parse text = .error .tooManyDecimals := by
  have hdecimals : checkDecimals text = .error .tooManyDecimals := if_pos (exceedsPlaces_iff.1 h)
  simp only [parse, hdecimals, bind, Except.bind]

/-- What is no numeral is refused next. -/
theorem parse_of_not_matches (hplaces : ¬ExceedsPlaces text.toList)
    (h : ¬Matches Literal.form text.toList) :
    parse text = .error .emptyText ∨ parse text = .error .notANumeral := by
  rw [← ofLiteral?_isSome_iff] at h
  have hnone : ofLiteral? text.toList = none := by simpa using h
  rw [exceedsPlaces_iff, Nat.not_lt] at hplaces
  by_cases hnil : text.toList = []
  · left
    simp only [parse, checkDecimals_eq_ok hplaces, parseNumber, if_pos hnil, bind, Except.bind]
  · right
    simp only [parse, checkDecimals_eq_ok hplaces, parseNumber, if_neg hnil, hnone, bind,
      Except.bind]

/-- A text of the grammar has the verdict on its number. -/
theorem parse_of_matches (hplaces : ¬ExceedsPlaces text.toList)
    (h : Matches Literal.form text.toList) :
    ∃ number, ofLiteral? text.toList = some number ∧ parse text = ofNumber number := by
  obtain ⟨number, hnumber⟩ := Option.isSome_iff_exists.1 (ofLiteral?_isSome_iff.2 h)
  rw [exceedsPlaces_iff, Nat.not_lt] at hplaces
  exact ⟨number, hnumber, parse_eq_ofNumber hplaces (parseNumber_eq_ok_iff.2 hnumber)⟩

/-- Of the texts of the grammar, those with a minus sign are too low, and so are those that stand
for no number. -/
theorem parse_of_minus_or_notANumber (hplaces : ¬ExceedsPlaces text.toList)
    (h : Matches Literal.form text.toList)
    (hlow : text.toList.head? = some '-' ∨ Matches Literal.notANumber text.toList) :
    parse text = .error .tooLow := by
  obtain ⟨number, hnumber, hparse⟩ := parse_of_matches hplaces h
  rw [hparse]
  rcases hlow with hminus | hnan
  · refine ofNumber_of_isNegative ?_
    rw [isNegative_of_ofLiteral? hnumber, takeSign_of_minus hminus]
  · obtain ⟨negative, hnone⟩ := ofLiteral?_of_notANumber hnan
    obtain rfl : number = .notANumber negative := Option.some.inj (hnumber.symm.trans hnone)
    rfl

end

theorem ofNumber_cases (number : Number) :
    ofNumber number = .error .tooLow ∨ ofNumber number = .error .tooHigh ∨
      ∃ p, 1 ≤ p ∧ p ≤ 1000 ∧ ofNumber number = .ok p := by
  cases number with
  | notANumber negative => exact .inl rfl
  | infinite negative =>
      cases negative with
      | true => exact .inl rfl
      | false => exact .inr (.inl rfl)
  | finite d =>
      rw [ofNumber_eq_verdict]
      exact verdict_cases _

/-- How reading a text ends. Each check takes what those before it have let through. -/
structure Outcomes (text : String) : Prop where
  /-- Too many decimals are an error whether the text is a numeral or not. -/
  tooManyDecimals : parse text = .error .tooManyDecimals ↔ ExceedsPlaces text.toList
  /-- Then the text has to be a numeral. -/
  numeral : ¬ExceedsPlaces text.toList →
    (parse text = .error .emptyText ∨ parse text = .error .notANumeral ↔
      ¬Matches Literal.form text.toList)
  /-- Then it must not have a minus sign, whatever its size, and it must stand for a number. -/
  minus : ¬ExceedsPlaces text.toList → Matches Literal.form text.toList →
    text.toList.head? = some '-' ∨ Matches Literal.notANumber text.toList →
    parse text = .error .tooLow
  /-- Then it is a fee percent, or lies on one side of them. -/
  size : ¬ExceedsPlaces text.toList → Matches Literal.form text.toList →
    parse text = .error .tooLow ∨ parse text = .error .tooHigh ∨
      ∃ p, 1 ≤ p ∧ p ≤ 1000 ∧ parse text = .ok p

/-- Which outcome a text has depends on which of the checks it fails first. -/
theorem outcomes (text : String) : Outcomes text := by
  have hsize (hplaces : ¬ExceedsPlaces text.toList) (h : Matches Literal.form text.toList) :
      parse text = .error .tooLow ∨ parse text = .error .tooHigh ∨
        ∃ p, 1 ≤ p ∧ p ≤ 1000 ∧ parse text = .ok p := by
    obtain ⟨number, -, hparse⟩ := parse_of_matches hplaces h
    rw [hparse]
    exact ofNumber_cases number
  refine ⟨⟨?_, parse_of_exceedsPlaces⟩, ?_, parse_of_minus_or_notANumber, hsize⟩
  · intro hparse
    by_contra hplaces
    by_cases h : Matches Literal.form text.toList
    · have hother := hsize hplaces h
      simp [hparse] at hother
    · have hother := parse_of_not_matches hplaces h
      simp [hparse] at hother
  · intro hplaces
    refine ⟨?_, parse_of_not_matches hplaces⟩
    intro hparse h
    have hother := hsize hplaces h
    rcases hparse with hparse | hparse <;> simp [hparse] at hother

/-- **Reading ends in a fee percent or in one of the errors**, by the order of the checks and with
no signal in between. An owner who asks for a new percent gets it, or the error and no change. -/
theorem parse_outcomes (text : String) :
    Outcomes text ∧ parseSignalling text = (parse text).mapError .refusal ∧
      ∀ s : FeeState,
        (∃ p, 1 ≤ p ∧ p ≤ 1000 ∧ parse text = .ok p ∧
          s.apply (.setPercent s.owner text) = (.ok (.percent p), { s with percent := p })) ∨
        ∃ reason, parse text = .error reason ∧
          s.apply (.setPercent s.owner text) = (.error (.newPercent reason), s) ∧
          (FeeError.newPercent reason).message = "Couldn't parse percent: " ++ reason.message := by
  refine ⟨outcomes text, parseSignalling_eq text, ?_⟩
  intro s
  cases hparse : parse text with
  | ok p =>
      have hset : s.setPercent s.owner text = .ok { s with percent := p } :=
        FeeState.setPercent_eq_ok_iff.2 ⟨rfl, p, hparse, rfl⟩
      refine .inl ⟨p, (parse_range hparse).1, (parse_range hparse).2, rfl, ?_⟩
      simp only [FeeState.apply, hset]
  | error reason =>
      have hset : s.setPercent s.owner text = .error (.newPercent reason) :=
        FeeState.setPercent_of_parse_error rfl hparse
      refine .inr ⟨reason, rfl, ?_, rfl⟩
      simp only [FeeState.apply, hset]

end Percent

end TransferFees
