import TransferFees.Proofs.PercentOrder
import TransferFees.Proofs.Spellings

/-!
# Percents in plain digits

A percent is mostly written in plain digits: whole digits, and a point with up to two digits behind
it. For such a text reading could do without decimal numbers. Its hundredths are the digits before
the point and two more behind it, with zeros where digits are missing.

* `parse_plain` — this is what reading comes to, however many digits there are and however many
  zeros are in front. Such a number of hundredths is whole, and a whole number is not rounded over.
* `parse_format` — what is written is in plain digits, so reading gives back what was written.
-/

namespace TransferFees.Percent

open Number

/-! ## The first point -/

section
variable {front rest : List Char}

theorem dropWhile_front (h : '.' ∉ front) (cs : List Char) :
    (front ++ cs).dropWhile (· != '.') = cs.dropWhile (· != '.') := by
  refine List.dropWhile_append_of_pos fun c hc => ?_
  simpa using fun hpoint : c = '.' => h (hpoint ▸ hc)

/-- What counts as decimals stands behind the first point. -/
theorem afterPoint_point (h : '.' ∉ front) : afterPoint (front ++ '.' :: rest) = rest := by
  rw [afterPoint, dropWhile_front h]
  simp

theorem afterPoint_of_not_mem (h : '.' ∉ front) : afterPoint front = [] := by
  have hdrop := dropWhile_front h []
  rw [List.append_nil] at hdrop
  simp [afterPoint, hdrop]

end

/-! ## Plain digits -/

/-- A percent in plain digits: whole digits, and a point with up to two digits or no point. There is
a digit somewhere. -/
structure Plain where
  /-- The digits before the point. -/
  whole : List Char
  /-- The digits behind the point, if there is one. -/
  fraction : Option (List Char)
  whole_digits : ∀ c ∈ whole, c.isDigit = true
  fraction_digits : ∀ c ∈ fraction.getD [], c.isDigit = true
  length_le : (fraction.getD []).length ≤ places
  ne_nil : whole ≠ [] ∨ fraction.getD [] ≠ []

namespace Plain

variable (t : Plain)

/-- The digits behind the point; without a point there are none. -/
def decimals : List Char := t.fraction.getD []

/-- The digits behind the point, with zeros after them up to two. -/
def padded : List Char := t.decimals.rightpad places '0'

/-- The digits with the point. -/
def chars : List Char :=
  match t.fraction with
  | none => t.whole
  | some ds => t.whole ++ '.' :: ds

/-- The text, with a plus sign in front or without one. -/
def text (plus : Bool) : String := String.ofList ((if plus then ['+'] else []) ++ t.chars)

/-- The text with a minus sign in front. -/
def minusText : String := String.ofList ('-' :: t.chars)

/-- The hundredths, by the digits alone. -/
def hundredths : Nat := 100 * Numeral.value t.whole + Numeral.value t.padded

/-- The text with two decimals, without zeros in front that are not needed. -/
def normal : String := String.ofList (Numeral.withoutZeros t.whole ++ '.' :: t.padded)

theorem padded_eq : t.padded = t.decimals ++ List.replicate (places - t.decimals.length) '0' := rfl

theorem length_padded : t.padded.length = places := by
  have hle : t.decimals.length ≤ places := t.length_le
  simp [padded_eq, hle]

theorem padded_digits : ∀ c ∈ t.padded, c.isDigit = true := by
  intro c hc
  rw [padded_eq, List.mem_append, List.mem_replicate] at hc
  rcases hc with hc | ⟨-, rfl⟩
  · exact t.fraction_digits c hc
  · decide

/-! ## The number that is read -/

/-- The number that the digits stand for. -/
def number (negative : Bool) : Decimal :=
  ⟨negative, Numeral.value (t.whole ++ t.decimals), -t.decimals.length⟩

/-- The same digits as a numeral with a sign and without an exponent. -/
def spelling (sign : Literal.Sign) : Literal.Spelling where
  sign := sign
  whole := t.whole
  fraction := t.fraction
  exponent := none
  whole_digits := t.whole_digits
  fraction_digits := t.fraction_digits
  ne_nil := t.ne_nil

/-- Plain digits are a spelling without an exponent. -/
theorem number_spelling (sign : Literal.Sign) :
    (t.spelling sign).number = t.number sign.isMinus := by
  simp [Literal.Spelling.number, Literal.Spelling.power, Literal.Spelling.decimals, spelling, number,
    decimals]

theorem ofLiteral?_chars (sign : Literal.Sign) :
    ofLiteral? (sign.chars ++ t.chars) = some (ofParts .standard (t.number sign.isMinus)) := by
  rw [← number_spelling, ← ofLiteral?_spelling]
  exact congrArg (fun cs => ofLiteral? (sign.chars ++ cs)) (List.append_nil _).symm

/-- The point is the first one, since neither a sign nor a digit is a point. -/
theorem afterPoint_chars {sign : List Char} (hsign : '.' ∉ sign) :
    afterPoint (sign ++ t.chars) = t.decimals := by
  have hfront : '.' ∉ sign ++ t.whole := by
    intro hmem
    rcases List.mem_append.1 hmem with hpoint | hpoint
    · exact hsign hpoint
    · simpa using t.whole_digits _ hpoint
  cases hf : t.fraction with
  | none =>
      simpa [chars, decimals, hf] using afterPoint_of_not_mem hfront
  | some ds =>
      have hpoint : afterPoint (sign ++ t.whole ++ '.' :: ds) = ds := afterPoint_point hfront
      simpa [chars, decimals, hf] using hpoint

/-- Plain digits pass the checks of the text, and what is left is the verdict on a number. -/
theorem parse_signed (sign : Literal.Sign) :
    parse (String.ofList (sign.chars ++ t.chars)) =
      ofNumber (ofParts .standard (t.number sign.isMinus)) := by
  have hpoint : '.' ∉ sign.chars := by cases sign <;> decide
  have hplaces : (afterPoint (String.ofList (sign.chars ++ t.chars)).toList).length ≤ places := by
    rw [String.toList_ofList, t.afterPoint_chars hpoint]
    exact t.length_le
  refine parse_eq_ofNumber hplaces (parseNumber_eq_ok_iff.2 ?_)
  rw [String.toList_ofList, t.ofLiteral?_chars sign]

/-- The hundredths by the digits are a hundred times the number. -/
theorem size_number (negative : Bool) : 100 * (t.number negative).size = t.hundredths := by
  have hle : t.decimals.length ≤ places := t.length_le
  have hdigits : t.hundredths =
      Numeral.placeValue (places - t.decimals.length) * Numeral.value (t.whole ++ t.decimals) := by
    have hpadded : Numeral.value (t.whole ++ t.padded) = t.hundredths := by
      rw [Numeral.value_append, length_padded]
      rfl
    rw [← hpadded, padded_eq, ← List.append_assoc, Numeral.value_append, Numeral.value_zeros,
      List.length_replicate, Nat.add_zero]
  have hplaces : (10 : ℚ) ^ (places - t.decimals.length) = 100 * 10 ^ (-t.decimals.length : ℤ) := by
    have hhundred : (100 : ℚ) = 10 ^ (places : ℤ) := by norm_num [places]
    rw [hhundred, ← zpow_add₀ (by norm_num), ← zpow_natCast]
    congr 1
    omega
  rw [hdigits, Nat.cast_mul, Numeral.cast_placeValue, hplaces, Decimal.size, number]
  ring

end Plain

/-! ## The verdict on plain digits -/

/-- A number of whole hundredths keeps its verdict where the range of exponents makes it an
infinity: with so many digits it is too high in any case. -/
theorem ofNumber_ofParts {d : Decimal} {n : Nat} (hsign : d.negative = false)
    (hleast : ExponentRange.standard.leastExponent ≤ d.exponent) (hsize : 100 * d.size = n) :
    ofNumber (ofParts .standard d) = verdict n := by
  unfold ofParts
  split_ifs with hlarge hzero hsmall
  · have hn : n = 0 := by
      have hnone : (n : ℚ) = 0 := by simp [← hsize, Decimal.size, hzero]
      exact_mod_cast hnone
    simp [ofNumber_eq_verdict, Decimal.value, Decimal.size, hn]
  · have hthousand : (1000 : ℚ) ≤ d.size := by
      refine le_trans ?_ (d.le_size hzero)
      have hplace : (10 : ℚ) ^ (3 : ℤ) ≤ 10 ^ d.adjusted := by
        refine zpow_le_zpow_right₀ (by norm_num) ?_
        simp only [ExponentRange.standard] at hlarge
        omega
      exact le_trans (by norm_num) hplace
    have hhigh : greatest < (n : Int) := by
      have hn : (1000 : ℚ) < n := by
        rw [← hsize]
        linarith
      show 1000 < (n : Int)
      exact_mod_cast hn
    rw [hsign, verdict_eq_tooHigh_iff.2 hhigh]
    rfl
  · omega
  · have hvalue : d.value = d.size := by simp [Decimal.value, hsign]
    rw [ofNumber_eq_verdict, hvalue, hsize, counted_natCast]

section
variable (t : Plain)

/-- **A plain text has the verdict on its hundredths.** There is nothing to cut off, and what is
rounded over is no whole number of hundredths. -/
theorem Plain.parse_text (plus : Bool) : parse (t.text plus) = verdict t.hundredths := by
  have hleast : ExponentRange.standard.leastExponent ≤ (t.number false).exponent := by
    have hle : t.decimals.length ≤ places := t.length_le
    simp only [ExponentRange.standard, Plain.number, places] at hle ⊢
    omega
  rw [← ofNumber_ofParts rfl hleast (t.size_number false), Plain.text]
  cases plus with
  | false => exact t.parse_signed .absent
  | true => exact t.parse_signed .plus

/-- A minus sign makes a number too low, however large it is. -/
theorem ofNumber_of_isNegative {number : Number} (h : number.isNegative = true) :
    ofNumber number = .error .tooLow := by
  cases number with
  | finite d =>
      have hd : d.negative = true := h
      simp [ofNumber, hd]
  | infinite negative =>
      have hn : negative = true := h
      simp [ofNumber, hn]
  | notANumber negative => rfl

/-- With a minus sign it is too low, also where it is zero. -/
theorem Plain.parse_minusText : parse t.minusText = .error .tooLow := by
  refine (t.parse_signed .minus).trans (ofNumber_of_isNegative ?_)
  exact isNegative_ofParts _ _

/-! ## Two decimals -/

theorem twoDigits_value {a b : Char} (ha : a.isDigit = true) (hb : b.isDigit = true) :
    Numeral.twoDigits (Numeral.value [a, b]) = [a, b] := by
  have hvalue : Numeral.value [a, b] = 10 * Numeral.digitValue a + Numeral.digitValue b := by
    simp [Numeral.value]
  have hlt := Numeral.digitValue_lt ha
  have hlt' := Numeral.digitValue_lt hb
  have htens : Numeral.value [a, b] / 10 % 10 = Numeral.digitValue a := by omega
  have hunits : Numeral.value [a, b] % 10 = Numeral.digitValue b := by omega
  rw [Numeral.twoDigits, htens, hunits, Numeral.digitChar_digitValue ha,
    Numeral.digitChar_digitValue hb]

theorem value_twoDigits (n : Nat) : Numeral.value (Numeral.twoDigits n) = n % 100 := by
  have htable : ∀ k < 10, Numeral.digitValue (Nat.digitChar k) = k := by decide
  have htens := htable (n / 10 % 10) (by omega)
  have hunits := htable (n % 10) (by omega)
  simp only [Numeral.twoDigits, Numeral.value, List.foldl_cons, List.foldl_nil, htens, hunits]
  omega

theorem isDigit_of_mem_twoDigits {n : Nat} {c : Char} (h : c ∈ Numeral.twoDigits n) :
    c.isDigit = true := by
  have htable : ∀ k < 10, (Nat.digitChar k).isDigit = true := by decide
  simp only [Numeral.twoDigits, List.mem_cons, List.not_mem_nil, or_false] at h
  rcases h with rfl | rfl
  · exact htable _ (by omega)
  · exact htable _ (by omega)

theorem Plain.twoDigits_padded : Numeral.twoDigits (Numeral.value t.padded) = t.padded := by
  obtain ⟨a, b, hpadded⟩ := List.length_eq_two.1 t.length_padded
  have hdigits := t.padded_digits
  rw [hpadded] at hdigits ⊢
  exact twoDigits_value (hdigits a (by simp)) (hdigits b (by simp))

theorem Plain.value_padded_lt : Numeral.value t.padded < 100 := by
  rw [← t.twoDigits_padded, value_twoDigits]
  omega

/-- The text with two decimals is that of the hundredths. -/
theorem Plain.normal_eq : t.normal = Numeral.text (t.hundredths / 100) ++ "." ++
    String.ofList (Numeral.twoDigits (t.hundredths % 100)) := by
  have hlt := t.value_padded_lt
  have hwhole : t.hundredths / 100 = Numeral.value t.whole := by
    rw [hundredths]
    omega
  have hrest : t.hundredths % 100 = Numeral.value t.padded := by
    rw [hundredths]
    omega
  rw [hwhole, hrest, t.twoDigits_padded, Numeral.text, Numeral.digits_value t.whole_digits, normal,
    ← String.toList_inj]
  simp

/-- **Reading plain digits is splitting them**: the digits before the point and two behind it are
the hundredths. What is accepted is written with two decimals and no needless zeros. -/
theorem parse_plain (plus : Bool) :
    (parse (t.text plus) = .ok t.hundredths ↔ 1 ≤ t.hundredths ∧ t.hundredths ≤ 1000) ∧
      (parse (t.text plus) = .error .tooLow ↔ t.hundredths = 0) ∧
      (parse (t.text plus) = .error .tooHigh ↔ 1000 < t.hundredths) ∧
      ∀ p, parse (t.text plus) = .ok p → p = t.hundredths ∧ format? p = some t.normal ∧
        t.normal = Numeral.text (t.hundredths / 100) ++ "." ++
          String.ofList (Numeral.twoDigits (t.hundredths % 100)) := by
  rw [t.parse_text plus]
  refine ⟨?_, ?_, ?_, ?_⟩
  · simp only [verdict_eq_ok_iff, least, greatest, true_and]
    omega
  · simp only [verdict_eq_tooLow_iff, least]
    omega
  · simp only [verdict_eq_tooHigh_iff, greatest]
    omega
  · intro p hp
    obtain ⟨rfl, -, hle⟩ := verdict_eq_ok_iff.1 hp
    have hsmall : (t.hundredths : Int).natAbs < 10 ^ 28 := by
      simp only [greatest] at hle
      omega
    refine ⟨rfl, ?_, t.normal_eq⟩
    rw [format?_eq hsmall, t.normal_eq]
    simp [Decimal.hundredthsText]

end

/-! ## Reading what was written -/

/-- A number of hundredths in plain digits. -/
def Plain.ofHundredths (n : Nat) : Plain where
  whole := Numeral.digits (n / 100)
  fraction := some (Numeral.twoDigits (n % 100))
  whole_digits := (Numeral.isNumeral_iff.1 (Numeral.isNumeral_digits _)).2
  fraction_digits := fun _ hc => isDigit_of_mem_twoDigits hc
  length_le := Nat.le_refl _
  ne_nil := .inl Nat.toDigits_ne_nil

theorem Plain.hundredths_ofHundredths (n : Nat) : (ofHundredths n).hundredths = n := by
  have hpadded : (ofHundredths n).padded = Numeral.twoDigits (n % 100) := by
    simp [padded_eq, decimals, ofHundredths, Numeral.twoDigits, places]
  rw [hundredths, hpadded, value_twoDigits]
  show 100 * Numeral.value (Numeral.digits (n / 100)) + n % 100 % 100 = n
  rw [Numeral.value_digits]
  omega

/-- What is written is in plain digits, with a minus sign below zero. -/
theorem hundredthsText_eq (z : Int) : Decimal.hundredthsText ⟨z < 0, z.natAbs, -2⟩ =
    if z < 0 then (Plain.ofHundredths z.natAbs).minusText
    else (Plain.ofHundredths z.natAbs).text false := by
  by_cases hz : z < 0 <;>
    simp [Decimal.hundredthsText, hz, Plain.minusText, Plain.text, Plain.chars,
      Plain.ofHundredths, Numeral.text, ← String.toList_inj]

/-- What was written has the verdict on the number itself. -/
theorem parse_hundredthsText (z : Int) :
    parse (Decimal.hundredthsText ⟨z < 0, z.natAbs, -2⟩) = verdict z := by
  rw [hundredthsText_eq]
  split
  · rename_i hz
    have hlow : z < least := by
      simp only [least]
      omega
    rw [Plain.parse_minusText, verdict_eq_tooLow_iff.2 hlow]
  · rename_i hz
    have habs : (z.natAbs : Int) = z := by omega
    rw [Plain.parse_text, Plain.hundredths_ofHundredths, habs]

/-- **Reading undoes writing** on the range, and of every other percent it tells on which side of
the range it lies. -/
theorem parse_format {p : Int} (h : p.natAbs < 10 ^ 28) :
    ∃ text, format? p = some text ∧ (parse text = .ok p ↔ 1 ≤ p ∧ p ≤ 1000) ∧
      (parse text = .error .tooLow ↔ p < 1) ∧ (parse text = .error .tooHigh ↔ 1000 < p) ∧
      parse text ≠ .error .tooManyDecimals ∧ parse text ≠ .error .notANumeral ∧
      parse text ≠ .error .emptyText := by
  refine ⟨_, format?_eq h, ?_⟩
  rw [parse_hundredthsText]
  refine ⟨?_, ?_, ?_, ?_, ?_, ?_⟩
  · simp [verdict_eq_ok_iff, least, greatest]
  · simp [verdict_eq_tooLow_iff, least]
  · simp [verdict_eq_tooHigh_iff, greatest]
  · exact verdict_ne_error (by simp) (by simp)
  · exact verdict_ne_error (by simp) (by simp)
  · exact verdict_ne_error (by simp) (by simp)

/-- The greatest percent that can be written, with all its 28 digits nines. -/
theorem parse_format_nines :
    let p : Int := 9999999999999999999999999999
    p.natAbs < 10 ^ 28 ∧ ∃ text, format? p = some text ∧ parse text = .error .tooHigh := by
  intro p
  have hp : p.natAbs < 10 ^ 28 := by decide
  obtain ⟨text, htext, -, -, hhigh, -⟩ := parse_format hp
  exact ⟨hp, text, htext, hhigh.2 (by decide)⟩

end TransferFees.Percent
