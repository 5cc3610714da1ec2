import Mathlib
import TransferFees.Proofs.Results
import TransferFees.Proofs.Scaling

/-!
# Greater numbers, greater percents

Texts of quite different shapes can stand for one number, or for numbers that are close together.
Whatever their shapes, the percents that are read from them are in the order of the numbers
(`parse_mono`), so texts of equal value have the same percent.

* `Number.worth?` — what a number is worth; the infinities stand at the two ends.
* `rank?` — the outcomes of reading in their order: too low, the percents, too high.
* `counted` — the hundredths that a value counts for. Rounding over is the one step of the way that
  could break the order. It does not, since two values with the same whole part have the same last
  digit, and if the smaller one rounds over then so does the greater (`counted_mono`).
-/

namespace TransferFees

/-- What a number is worth, with an infinity below and one above all others. -/
def Number.worth? : Number → Option (WithBot (WithTop ℚ))
  | .finite d => some ((d.value : WithTop ℚ) : WithBot (WithTop ℚ))
  | .infinite true => some ⊥
  | .infinite false => some ⊤
  | .notANumber _ => none

namespace Percent

/-- The place of an outcome among all outcomes: too low comes before the percents, too high after
them. A text that is no numeral, or has too many decimals, has no place. -/
def rank? : Except ParseError Int → Option (WithBot (WithTop Int))
  | .error .tooLow => some ⊥
  | .ok p => some ((p : WithTop Int) : WithBot (WithTop Int))
  | .error .tooHigh => some ⊤
  | .error _ => none

/-- The text can be read, and the number that it names is worth `v`. -/
structure Reads (text : String) (v : WithBot (WithTop ℚ)) : Prop where
  places : (afterPoint text.toList).length ≤ places
  number : ∃ number, parseNumber text = .ok number ∧ number.worth? = some v

/-! ## The hundredths that count -/

instance (x : ℚ) : Decidable (RoundsOver x) := inferInstanceAs (Decidable (_ ∧ _))

/-- The hundredths that a hundred times a percent counts for: its whole part, or the next number if
it rounds over. -/
def counted (x : ℚ) : ℤ := if RoundsOver x then ⌊x⌋ + 1 else ⌊x⌋

theorem floor_le_counted (x : ℚ) : ⌊x⌋ ≤ counted x := by
  unfold counted
  split <;> simp

theorem counted_le_floor_add_one (x : ℚ) : counted x ≤ ⌊x⌋ + 1 := by
  unfold counted
  split <;> simp

/-- Between two values with the same whole part, the greater one is nearer to the next number. -/
theorem RoundsOver.mono {x y : ℚ} (hfloor : ⌊x⌋ = ⌊y⌋) (hle : x ≤ y) (h : RoundsOver x) :
    RoundsOver y := by
  have hwhole : ⌊x⌋₊ = ⌊y⌋₊ := by rw [← Int.floor_toNat, ← Int.floor_toNat, hfloor]
  have hunit : lastUnit x = lastUnit y := by rw [lastUnit, lastUnit, hwhole]
  rw [RoundsOver, ← hfloor, ← hunit]
  exact ⟨h.1, h.2.trans (by linarith)⟩

/-- **Counting hundredths is monotone.** Between two whole parts there is room for a value to round
over, and within one it is the greater value that rounds over first. -/
theorem counted_mono : Monotone counted := by
  intro x y hle
  rcases (Int.floor_mono hle).lt_or_eq with hlt | hfloor
  · calc counted x ≤ ⌊x⌋ + 1 := counted_le_floor_add_one x
      _ ≤ ⌊y⌋ := hlt
      _ ≤ counted y := floor_le_counted y
  · by_cases hover : RoundsOver x
    · have hover' := hover.mono hfloor hle
      simp [counted, hover, hover', hfloor]
    · have hx : counted x = ⌊x⌋ := by simp [counted, hover]
      rw [hx, hfloor]
      exact floor_le_counted y

/-- A whole number is too far from the next one to round over. -/
theorem not_roundsOver_natCast (n : ℕ) : ¬RoundsOver n := by
  rintro ⟨hrange, hle⟩
  rw [Int.floor_natCast] at hrange hle
  have hdigits : Numeral.length n ≤ 28 := by
    rw [Numeral.length_le_iff (by norm_num)]
    norm_num [Numeral.placeValue, greatest] at hrange ⊢
    omega
  have hunit : lastUnit n ≤ 1 := by
    refine zpow_le_one_of_nonpos₀ (by norm_num) ?_
    rw [Nat.floor_natCast, wholeDigits]
    split <;> omega
  push_cast at hle
  linarith

@[simp] theorem counted_natCast (n : ℕ) : counted n = n := by
  simp [counted, not_roundsOver_natCast]

@[simp] theorem counted_zero : counted 0 = 0 := by
  simpa using counted_natCast 0

/-- **The verdict on a number** is that on the hundredths that its value counts for, with or without
a sign. -/
theorem ofNumber_eq_verdict (d : Decimal) :
    ofNumber (.finite d) = verdict (counted (100 * d.value)) := by
  by_cases hsign : d.negative = true
  · have hvalue : 100 * d.value ≤ 0 := by
      have hsize := d.size_nonneg
      simp [Decimal.value, hsign, hsize]
    have hcounted : counted (100 * d.value) ≤ 0 := by
      simpa using counted_mono hvalue
    have hlow : counted (100 * d.value) < least := by
      simp only [least]
      omega
    simp [ofNumber, verdict, hsign, hlow]
  · have hpositive : d.negative = false := by simpa using hsign
    have hvalue : d.value = d.size := by simp [Decimal.value, hpositive]
    obtain ⟨hover, hbelow⟩ := ofNumber_scaled hpositive
    rw [hvalue, counted]
    split
    · rename_i hround
      exact hover hround
    · rename_i hround
      exact hbelow hround

/-! ## The order of outcomes -/

/-- The place of a whole number of hundredths: the bottom below the range, the top above it. -/
def placeOf (n : Int) : WithBot (WithTop Int) :=
  if n < least then ⊥ else if greatest < n then ⊤ else (n : WithTop Int)

/-- Below the range all is one place, and so is all above it. -/
theorem placeOf_mono : Monotone placeOf := by
  intro m n hle
  by_cases hlow : m < least
  · simp [placeOf, hlow]
  · have hlow' : ¬n < least := by omega
    by_cases hhigh : greatest < n
    · simp [placeOf, hlow', hhigh]
    · have hhigh' : ¬greatest < m := by omega
      simp [placeOf, hlow, hlow', hhigh, hhigh', hle]

theorem rank?_verdict (n : Int) : rank? (verdict n) = some (placeOf n) := by
  unfold verdict placeOf
  split_ifs <;> rfl

/-- The places of hundredths that may be infinite. -/
def clamp : WithBot (WithTop Int) → WithBot (WithTop Int)
  | none => ⊥
  | some none => ⊤
  | some (some n) => placeOf n

/-- Nothing is below an infinity of the one sign or above one of the other, and in between `placeOf`
is monotone. -/
theorem clamp_mono : Monotone clamp := by
  intro m n hle
  cases m with
  | bot => exact bot_le
  | coe m =>
      cases n with
      | bot => simp at hle
      | coe n =>
          cases n with
          | top => exact le_top
          | coe n =>
              cases m with
              | top => simp at hle
              | coe m => exact placeOf_mono (by simpa using hle)

/-- The hundredths that a value counts for; the infinities are kept. -/
def hundredthsOf : WithBot (WithTop ℚ) → WithBot (WithTop Int) :=
  WithBot.map (WithTop.map fun x => counted (100 * x))

theorem hundredthsOf_mono : Monotone hundredthsOf := by
  have hscaled : Monotone fun x : ℚ => counted (100 * x) := by
    intro x y hle
    exact counted_mono (by linarith)
  exact hscaled.withTop_map.withBot_map

/-- The place of the verdict depends on the worth of the number alone. -/
theorem rank?_ofNumber {number : Number} {v : WithBot (WithTop ℚ)} (h : number.worth? = some v) :
    rank? (ofNumber number) = some (clamp (hundredthsOf v)) := by
  cases number with
  | finite d =>
      simp only [Number.worth?, Option.some.injEq] at h
      rw [ofNumber_eq_verdict, rank?_verdict, ← h]
      rfl
  | infinite negative =>
      cases negative <;> simp only [Number.worth?, Option.some.injEq] at h <;> subst h <;> rfl
  | notANumber negative => simp [Number.worth?] at h

/-- The outcome at a place. -/
def outcomeAt : WithBot (WithTop Int) → Except ParseError Int
  | none => .error .tooLow
  | some none => .error .tooHigh
  | some (some p) => .ok p

/-- Outcomes are told apart by their places. -/
theorem eq_outcomeAt {x : Except ParseError Int} {a : WithBot (WithTop Int)}
    (h : rank? x = some a) : x = outcomeAt a := by
  cases x with
  | ok p =>
      cases h
      rfl
  | error e =>
      cases e <;> cases h <;> rfl

section
variable {s t : String} {v w : WithBot (WithTop ℚ)}

/-- The place of a text's outcome is a matter of its value. -/
theorem Reads.rank? (h : Reads s v) : Percent.rank? (parse s) = some (clamp (hundredthsOf v)) := by
  obtain ⟨number, hnumber, hworth⟩ := h.number
  rw [parse_eq_ofNumber h.places hnumber, rank?_ofNumber hworth]

/-- **Reading is monotone**: of two texts that can be read, the one of the greater number does not
have the smaller outcome, and texts of equal value have the same outcome. -/
theorem parse_mono (hs : Reads s v) (ht : Reads t w) :
    ∃ a b, Percent.rank? (parse s) = some a ∧ Percent.rank? (parse t) = some b ∧
      (v ≤ w → a ≤ b) ∧ (v = w → parse s = parse t) := by
  refine ⟨_, _, hs.rank?, ht.rank?, ?_, ?_⟩
  · intro hle
    exact clamp_mono (hundredthsOf_mono hle)
  · rintro rfl
    exact (eq_outcomeAt hs.rank?).trans (eq_outcomeAt ht.rank?).symm

end

/-- Two ways to write five percent, with unlike coefficients and exponents. -/
theorem parse_mono_five :
    let five : WithBot (WithTop ℚ) := ((5 : ℚ) : WithTop ℚ)
    Reads "5e0" five ∧ Reads "500e-2" five ∧ parse "5e0" = parse "500e-2" := by
  intro five
  have hs : Reads "5e0" five := by
    refine ⟨by decide, .finite ⟨false, 5, 0⟩, by decide +kernel, ?_⟩
    norm_num [Number.worth?, Decimal.value, Decimal.size, five]
  have ht : Reads "500e-2" five := by
    refine ⟨by decide, .finite ⟨false, 500, -2⟩, by decide +kernel, ?_⟩
    norm_num [Number.worth?, Decimal.value, Decimal.size, five]
  obtain ⟨_, _, -, -, -, heq⟩ := parse_mono hs ht
  exact ⟨hs, ht, heq rfl⟩

end Percent

end TransferFees
