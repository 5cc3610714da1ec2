import Mathlib.Algebra.Order.Field.Power
import Mathlib.Algebra.Order.Floor.Semifield
import Mathlib.Data.Rat.Floor
import Mathlib.Tactic.FieldSimp
import Mathlib.Tactic.Linarith
import TransferFees.Proofs.Percent

/-!
# What decimal numbers are worth

The calculations with decimal numbers avoid the powers of ten of their exponents. Here the powers
are written out, as rational numbers, and every calculation is compared with what it stands for.

* `reaches_iff`, `truncate_eq` — comparing and cutting off are exact, whatever the exponent.
* `size_round` — rounding picks a place for the last digit and goes to the nearest number there.
* `truncate_round` — where the last place is behind the point, to round and then to cut off is to
  add half a unit of the last place and to cut off. Rounding half to even makes no difference to
  it: what it decides is at the last place, and a whole number is even there.
-/

namespace TransferFees

namespace Numeral

theorem placeValue_pos (k : Nat) : 0 < placeValue k := Nat.pow_pos (by decide)

@[simp] theorem placeValue_zero : placeValue 0 = 1 := rfl

theorem placeValue_succ (k : Nat) : placeValue (k + 1) = 10 * placeValue k := Nat.pow_succ'

theorem placeValue_mono {j k : Nat} (h : j ≤ k) : placeValue j ≤ placeValue k :=
  Nat.pow_le_pow_right (by decide) h

theorem cast_placeValue (k : Nat) : (placeValue k : ℚ) = 10 ^ k := by simp [placeValue]

theorem length_pos (n : Nat) : 0 < length n := List.length_pos_iff.2 Nat.toDigits_ne_nil

theorem lt_placeValue_length (n : Nat) : n < placeValue (length n) :=
  (length_le_iff (length_pos n)).1 (Nat.le_refl _)

theorem placeValue_le {n : Nat} (h : n ≠ 0) : placeValue (length n - 1) ≤ n := by
  by_cases hone : length n = 1
  · rw [hone]
    exact Nat.one_le_iff_ne_zero.2 h
  · have hlength := length_pos n
    by_contra hlt
    have := (length_le_iff (n := n) (k := length n - 1) (by omega)).2 (by omega)
    omega

end Numeral

/-! ## Rounding to the nearest -/

/-- Half a unit more, and cut off: this differs from the nearest number in the middle between two
numbers only. Where `m` is even, the quotient by `m` is the same all the same. -/
theorem nearest_div {n d m : Nat} (hd : 0 < d) (hm : m % 2 = 0) :
    nearest n d / m = (2 * n + d) / (2 * d * m) := by
  have hdecomp : n = d * (n / d) + n % d := (Nat.div_add_mod n d).symm
  have hr : n % d < d := Nat.mod_lt _ hd
  have hhalf : (2 * n + d) / (2 * d) = n / d + (2 * (n % d) + d) / (2 * d) := by
    have hsplit : 2 * n + d = 2 * (n % d) + d + 2 * d * (n / d) := by
      conv_lhs => rw [hdecomp]
      ring
    rw [hsplit, Nat.add_mul_div_left _ _ (by omega), Nat.add_comm]
  rw [← Nat.div_div_eq_div_mul, hhalf, nearest]
  rcases Nat.lt_trichotomy (2 * (n % d)) d with hlt | heq | hgt
  · have hzero : (2 * (n % d) + d) / (2 * d) = 0 := Nat.div_eq_of_lt (by omega)
    rw [if_pos hlt, hzero, Nat.add_zero]
  · have hone : (2 * (n % d) + d) / (2 * d) = 1 := Nat.div_eq_of_lt_le (by omega) (by omega)
    rw [if_neg (by omega), if_neg (by omega), hone]
    split
    · -- the even number is chosen; the odd one above it is no multiple of `m`
      rename_i heven
      obtain ⟨half, rfl⟩ : ∃ half, m = 2 * half := ⟨m / 2, by omega⟩
      rw [← Nat.div_div_eq_div_mul, ← Nat.div_div_eq_div_mul]
      congr 1
      omega
    · rfl
  · have hone : (2 * (n % d) + d) / (2 * d) = 1 := Nat.div_eq_of_lt_le (by omega) (by omega)
    rw [if_neg (by omega), if_pos hgt, hone]

/-- A power of ten with more digits than the number leaves less than a half. -/
theorem roundedQuotient_eq (n k : Nat) : roundedQuotient n k = nearest n (Numeral.placeValue k) := by
  rw [roundedQuotient]
  split
  · rename_i hshort
    have hn := Numeral.lt_placeValue_length n
    have hplace : 10 * Numeral.placeValue (Numeral.length n) ≤ Numeral.placeValue k := by
      rw [← Numeral.placeValue_succ]
      exact Numeral.placeValue_mono hshort
    rw [nearest, Nat.div_eq_of_lt (by omega), Nat.mod_eq_of_lt (by omega), if_pos (by omega)]
  · rfl

theorem nearest_one (n : Nat) : nearest n 1 = n := by simp [nearest, Nat.mod_one]

/-- What is below a whole number of units is not rounded above it. -/
theorem nearest_le {n d b : Nat} (h : n < b * d) : nearest n d ≤ b := by
  have hq : n / d < b := Nat.div_lt_of_lt_mul (by rwa [Nat.mul_comm])
  simp only [nearest]
  split_ifs <;> omega

namespace Decimal

/-! ## Values -/

/-- What the number is worth without its sign. -/
def size (d : Decimal) : ℚ := d.coefficient * 10 ^ d.exponent

/-- What the number is worth. -/
def value (d : Decimal) : ℚ := if d.negative then -d.size else d.size

section
variable (d : Decimal)

theorem size_nonneg : 0 ≤ d.size := by
  unfold size
  positivity

theorem size_shift (k : Int) : (d.shift k).size = d.size * 10 ^ k := by
  rw [size, size, shift, zpow_add₀ (by norm_num), mul_assoc]

/-- The size, with the last digit brought to any place `10 ^ k`. -/
theorem size_eq_at (k : Int) :
    d.size = (d.coefficient * Numeral.placeValue (d.exponent - k).toNat : ℕ) /
      (Numeral.placeValue (k - d.exponent).toNat : ℕ) * 10 ^ k := by
  rw [size, Nat.cast_mul, Numeral.cast_placeValue, Numeral.cast_placeValue, mul_div_assoc,
    ← zpow_natCast, ← zpow_natCast, ← zpow_sub₀ (by norm_num), mul_assoc,
    ← zpow_add₀ (by norm_num)]
  congr 2
  omega

/-- The adjusted exponent is that of the first digit: the value is below ten times its unit. -/
theorem size_lt : d.size < 10 ^ (d.adjusted + 1) := by
  have hcoefficient : (d.coefficient : ℚ) < 10 ^ (Numeral.length d.coefficient) := by
    rw [← Numeral.cast_placeValue]
    exact_mod_cast Numeral.lt_placeValue_length d.coefficient
  have hplaces : (10 : ℚ) ^ (d.adjusted + 1) =
      10 ^ (Numeral.length d.coefficient) * 10 ^ d.exponent := by
    rw [← zpow_natCast, ← zpow_add₀ (by norm_num), adjusted]
    congr 1
    omega
  rw [size, hplaces]
  exact mul_lt_mul_of_pos_right hcoefficient (by positivity)

/-- It is not below the unit, unless it is zero. -/
theorem le_size (h : d.coefficient ≠ 0) : 10 ^ d.adjusted ≤ d.size := by
  have hcoefficient : (10 : ℚ) ^ (Numeral.length d.coefficient - 1) ≤ d.coefficient := by
    rw [← Numeral.cast_placeValue]
    exact_mod_cast Numeral.placeValue_le h
  have hplaces : (10 : ℚ) ^ d.adjusted =
      10 ^ (Numeral.length d.coefficient - 1) * 10 ^ d.exponent := by
    have hlength := Numeral.length_pos d.coefficient
    rw [← zpow_natCast, ← zpow_add₀ (by norm_num), adjusted]
    congr 1
    omega
  rw [size, hplaces]
  exact mul_le_mul_of_nonneg_right hcoefficient (by positivity)

end

/-! ## Comparing and cutting off -/

/-- The size as a quotient of natural numbers. -/
theorem size_eq_div (d : Decimal) :
    d.size = (d.coefficient * Numeral.placeValue d.exponent.toNat : ℕ) /
      (Numeral.placeValue (-d.exponent).toNat : ℕ) := by
  have hsize := d.size_eq_at 0
  simpa using hsize

/-- **The comparison by digits is the comparison of values.** It never computes the value, whose
exponent may be huge. -/
theorem reaches_iff {d : Decimal} {n : Nat} : d.reaches n = true ↔ (n : ℚ) ≤ d.size := by
  rw [reaches]
  split_ifs with hzero hn hless hmore
  · simp [size, hzero]
  · simp [hn, d.size_nonneg]
  · -- the first digit counts less than that of `n`
    have hsize : d.size < 10 ^ (Numeral.length n - 1) := by
      refine d.size_lt.trans_le ?_
      rw [← zpow_natCast]
      exact zpow_le_zpow_right₀ (by norm_num) (by have := Numeral.length_pos n; omega)
    have hfirst : (10 : ℚ) ^ (Numeral.length n - 1) ≤ n := by
      rw [← Numeral.cast_placeValue]
      exact_mod_cast Numeral.placeValue_le hn
    simp [hsize.trans_le hfirst]
  · have hfirst : (n : ℚ) < 10 ^ Numeral.length n := by
      rw [← Numeral.cast_placeValue]
      exact_mod_cast Numeral.lt_placeValue_length n
    have hsize : (10 : ℚ) ^ Numeral.length n ≤ d.size := by
      refine le_trans ?_ (d.le_size hzero)
      rw [← zpow_natCast]
      exact zpow_le_zpow_right₀ (by norm_num) (by omega)
    simp [(hfirst.trans_le hsize).le]
  · have hplace : (0 : ℚ) < Numeral.placeValue (-d.exponent).toNat :=
      Nat.cast_pos.2 (Numeral.placeValue_pos _)
    rw [d.size_eq_div, le_div_iff₀ hplace, decide_eq_true_iff]
    norm_cast

/-- To cut digits off is to take the floor. -/
theorem truncate_eq (d : Decimal) : d.truncate = ⌊d.size⌋₊ := by
  rw [truncate]
  split_ifs with hsmall hwhole
  · have hsize : d.size < 1 := by
      rcases hsmall with hzero | hadjusted
      · simp [size, hzero]
      · refine d.size_lt.trans_le ?_
        exact zpow_le_one_of_nonpos₀ (by norm_num) (by omega)
    exact (Nat.floor_eq_zero.2 hsize).symm
  · have hone : (-d.exponent).toNat = 0 := by omega
    rw [d.size_eq_div, hone, Nat.floor_div_eq_div]
    exact (Nat.div_one _).symm
  · have hone : d.exponent.toNat = 0 := by omega
    rw [d.size_eq_div, hone, Nat.floor_div_eq_div]
    exact congrArg (· / _) (Nat.mul_one _).symm

/-! ## Rounding -/

/-- The power of ten that the last digit counts after rounding, if rounding has to drop digits. -/
def lastPlace (p : Precision) (d : Decimal) : Int :=
  max p.leastExponent (d.exponent + (Numeral.length d.coefficient : Int) - (p.digits : Int))

section
variable {p : Precision} (d : Decimal)

theorem lastPlace_shift (k : Int) : (d.shift k).lastPlace p =
    max p.leastExponent (d.exponent + k + Numeral.length d.coefficient - p.digits) := rfl

/-- The digits that are left fit into the precision, but for a power of ten that rounding up may
lead to. -/
theorem roundedQuotient_le :
    roundedQuotient d.coefficient (d.lastPlace p - d.exponent).toNat ≤
      Numeral.placeValue p.digits := by
  rw [roundedQuotient_eq]
  refine nearest_le (lt_of_lt_of_le (Numeral.lt_placeValue_length d.coefficient) ?_)
  refine (Numeral.placeValue_mono ?_).trans_eq (Nat.pow_add 10 _ _)
  simp only [lastPlace]
  omega

/-- Where the last place is above the exponent, digits are given up there, and carrying may shorten
the number by one more. -/
theorem round_of_lt (h : d.exponent < d.lastPlace p) :
    d.round p =
      let r := d.roundAt (d.lastPlace p)
      if p.digits < Numeral.length r.coefficient then
        { r with coefficient := r.coefficient / 10, exponent := r.exponent + 1 }
      else r := if_neg (Int.not_le.2 h)

/-- Where rounding adds a digit, it has led to a power of ten. -/
theorem coefficient_roundAt (hp : 0 < p.digits)
    (h : p.digits < Numeral.length (d.roundAt (d.lastPlace p)).coefficient) :
    (d.roundAt (d.lastPlace p)).coefficient = Numeral.placeValue p.digits := by
  refine Nat.le_antisymm d.roundedQuotient_le (Nat.le_of_not_lt fun hlt => ?_)
  exact Nat.not_le.2 h ((Numeral.length_le_iff hp).2 hlt)

/-- Dropping the last digit after rounding changes nothing, since it is a zero. -/
theorem size_round_of_lt (hp : 0 < p.digits) (h : d.exponent < d.lastPlace p) :
    (d.round p).size = (d.roundAt (d.lastPlace p)).size := by
  rw [d.round_of_lt h]
  dsimp only
  split
  · rename_i hlong
    have hten : Numeral.placeValue p.digits = 10 * Numeral.placeValue (p.digits - 1) := by
      rw [← Numeral.placeValue_succ, Nat.sub_add_cancel hp]
    rw [size, size, d.coefficient_roundAt hp hlong, hten, Nat.mul_div_cancel_left _ (by decide),
      zpow_add_one₀ (by norm_num)]
    push_cast
    ring
  · rfl

/-- **Rounding goes to the nearest number at the last place.** -/
theorem size_round (hp : 0 < p.digits) :
    (d.round p).size =
      nearest (d.coefficient * Numeral.placeValue (d.exponent - d.lastPlace p).toNat)
        (Numeral.placeValue (d.lastPlace p - d.exponent).toNat) * 10 ^ d.lastPlace p := by
  rcases lt_or_ge d.exponent (d.lastPlace p) with hlt | hge
  · have hone : (d.exponent - d.lastPlace p).toNat = 0 := by omega
    rw [d.size_round_of_lt hp hlt, hone, Numeral.placeValue_zero, Nat.mul_one,
      ← roundedQuotient_eq]
    rfl
  · have hone : (d.lastPlace p - d.exponent).toNat = 0 := by omega
    have hround : d.round p = d := if_pos hge
    have hsize := d.size_eq_at (d.lastPlace p)
    rw [hone, Numeral.placeValue_zero, Nat.cast_one, div_one] at hsize
    rw [hround, hsize, hone, Numeral.placeValue_zero, nearest_one]

/-- **To round and to cut off** behind the last place is to add half a unit and to cut off. -/
theorem truncate_round (hp : 0 < p.digits) (hplace : d.lastPlace p < 0) :
    (d.round p).truncate = ⌊d.size + 10 ^ d.lastPlace p / 2⌋₊ := by
  -- how many units of the last place make one: an even number
  obtain ⟨k, hk⟩ : ∃ k : Nat, d.lastPlace p = -(k + 1 : Nat) :=
    ⟨(-d.lastPlace p).toNat - 1, by omega⟩
  have hunits : (10 : ℚ) ^ d.lastPlace p = 1 / (Numeral.placeValue (k + 1) : ℕ) := by
    rw [hk, zpow_neg, zpow_natCast, Numeral.cast_placeValue, one_div]
  have heven : Numeral.placeValue (k + 1) % 2 = 0 := by
    rw [Numeral.placeValue_succ]
    omega
  have hpos := Numeral.placeValue_pos (k + 1)
  have hpos' := Numeral.placeValue_pos (d.lastPlace p - d.exponent).toNat
  rw [truncate_eq, d.size_round hp, d.size_eq_at (d.lastPlace p), hunits, mul_one_div,
    Nat.floor_div_eq_div, nearest_div hpos' heven, ← Nat.floor_div_eq_div (K := ℚ)]
  congr 1
  push_cast
  field_simp

end

end Decimal

end TransferFees
