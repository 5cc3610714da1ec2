import Mathlib.Data.Rat.Floor
import TransferFees.Proofs.FeeState

/-!
# The fee of an amount

What the formula of the fee comes to for the percents of valid states. A tenth of the amount is the
most that is charged (`feeOf_bounds`), and for the amounts that requests can carry the product stays
far below its cap (`feeOf_of_le_greatestAmount`). A greater amount or a greater percent never lowers
the fee, on either side of the cap and across it (`feeOf_mono`).

The product is capped before it is divided. That the fee is the lesser of two rounded quotients all
the same, the exact one and that of the cap, is `feeOf_closed_form`.
-/

namespace TransferFees

variable {amount percent value : Int}

theorem feeOf_of_nonneg (h : 0 ≤ amount) :
    feeOf amount percent = .ok (min (percent * amount) greatestProduct / feeDenominator) :=
  if_neg (Int.not_lt.2 h)

/-- It makes no difference whether the product is capped before it is divided, or the fee after. -/
theorem feeOf_eq_min (h : 0 ≤ amount) (percent : Int) :
    feeOf amount percent =
      .ok (min (percent * amount / feeDenominator) (greatestProduct / feeDenominator)) := by
  rw [feeOf_of_nonneg h]
  congr 1
  simp only [feeDenominator]
  omega

/-- The product of an amount and a fee percent is a thousand amounts at most. -/
theorem product_bounds (hamount : 0 ≤ amount)
    (hpercent : Percent.least ≤ percent ∧ percent ≤ Percent.greatest) :
    0 ≤ percent * amount ∧ percent * amount ≤ 1000 * amount := by
  obtain ⟨hleast, hgreatest⟩ := hpercent
  have hnonneg : 0 ≤ percent := Int.le_trans (by decide) hleast
  exact ⟨Int.mul_nonneg hnonneg hamount, Int.mul_le_mul_of_nonneg_right hgreatest hamount⟩

/-- **A fee lies between zero and a tenth of the amount.** The cap only lowers it. -/
theorem feeOf_bounds (hamount : 0 ≤ amount)
    (hpercent : Percent.least ≤ percent ∧ percent ≤ Percent.greatest)
    (h : feeOf amount percent = .ok value) : 0 ≤ 10 * value ∧ 10 * value ≤ amount := by
  rw [feeOf_of_nonneg hamount] at h
  cases h
  obtain ⟨hnonneg, hthousand⟩ := product_bounds hamount hpercent
  have hcapped : min (percent * amount) greatestProduct ≤ 1000 * amount :=
    Int.le_trans (Int.min_le_left _ _) hthousand
  have hmin : 0 ≤ min (percent * amount) greatestProduct := Int.le_min.2 ⟨hnonneg, by decide⟩
  simp only [feeDenominator]
  omega

/-! ## Below the cap -/

/-- Up to this amount the product with a fee percent does not go beyond the cap. -/
def greatestUncapped : Int := greatestProduct / Percent.greatest

theorem greatestAmount_le_greatestUncapped : greatestAmount ≤ greatestUncapped := by decide

theorem product_le_greatestProduct (hamount : 0 ≤ amount) (hle : amount ≤ greatestUncapped)
    (hpercent : Percent.least ≤ percent ∧ percent ≤ Percent.greatest) :
    percent * amount ≤ greatestProduct := by
  obtain ⟨-, hthousand⟩ := product_bounds hamount hpercent
  simp only [greatestUncapped, greatestProduct, Percent.greatest] at hle ⊢
  omega

theorem feeOf_of_le_greatestUncapped (hamount : 0 ≤ amount) (hle : amount ≤ greatestUncapped)
    (hpercent : Percent.least ≤ percent ∧ percent ≤ Percent.greatest) :
    feeOf amount percent = .ok (percent * amount / feeDenominator) := by
  rw [feeOf_of_nonneg hamount, Int.min_eq_left (product_le_greatestProduct hamount hle hpercent)]

/-- **The amounts of requests are too small for the cap.** -/
theorem feeOf_of_le_greatestAmount (hamount : 0 ≤ amount) (hle : amount ≤ greatestAmount)
    (hpercent : Percent.least ≤ percent ∧ percent ≤ Percent.greatest) :
    feeOf amount percent = .ok (percent * amount / feeDenominator) :=
  feeOf_of_le_greatestUncapped hamount (hle.trans greatestAmount_le_greatestUncapped) hpercent

/-! ## The fee as a function of amount and percent -/

/-- **A greater amount or a greater percent never lowers the fee.** Both products may be below the
cap, or both beyond it, or only the greater one may be. -/
theorem feeOf_mono {more higher value' : Int} (hamount : 0 ≤ amount) (hmore : amount ≤ more)
    (hpercent : 0 ≤ percent) (hhigher : percent ≤ higher) (h : feeOf amount percent = .ok value)
    (h' : feeOf more higher = .ok value') : value ≤ value' := by
  rw [feeOf_of_nonneg hamount] at h
  rw [feeOf_of_nonneg (hamount.trans hmore)] at h'
  cases h
  cases h'
  have hproduct : percent * amount ≤ higher * more :=
    Int.mul_le_mul hhigher hmore hamount (hpercent.trans hhigher)
  exact Int.ediv_le_ediv (by decide) (min_le_min_right _ hproduct)

/-- Dividing by the denominator is rounding the exact quotient down. -/
theorem floor_div_denominator (n : Int) : ⌊(n / 10000 : ℚ)⌋ = n / feeDenominator :=
  Rat.floor_intCast_div_natCast n 10000

/-- **The fee in closed form.** It is the exact quotient rounded down, or that of the cap if it is
less, for negative percents as well. For the percents of valid states the cap makes no difference up
to a thousandth of it, and so for all amounts of 128 bits; whatever the amount, a tenth of it is the
most that is charged; and no greater amount or percent is charged less. -/
theorem feeOf_closed_form (hamount : 0 ≤ amount) (percent : Int) :
    feeOf amount percent =
        .ok (min ⌊(amount * percent / 10000 : ℚ)⌋ ⌊((2 ^ 256 - 1) / 10000 : ℚ)⌋) ∧
      (1 ≤ percent → percent ≤ 1000 → ∃ fee, feeOf amount percent = .ok fee ∧
        (amount ≤ ⌊((2 ^ 256 - 1) / 1000 : ℚ)⌋ ∨ amount ≤ 2 ^ 128 - 1 →
          percent * amount ≤ 2 ^ 256 - 1 ∧ fee = ⌊(amount * percent / 10000 : ℚ)⌋) ∧
        10 * fee ≤ amount ∧
        ∀ more higher : Int, amount ≤ more → percent ≤ higher → higher ≤ 1000 →
          ∃ fee', feeOf more higher = .ok fee' ∧ fee ≤ fee') := by
  have hexact : ⌊(amount * percent / 10000 : ℚ)⌋ = percent * amount / feeDenominator := by
    rw [Int.mul_comm, ← floor_div_denominator, Int.cast_mul]
  have hcap : ⌊((2 ^ 256 - 1) / 10000 : ℚ)⌋ = greatestProduct / feeDenominator := by
    norm_num [greatestProduct, feeDenominator]
  have huncapped : ⌊((2 ^ 256 - 1) / 1000 : ℚ)⌋ = greatestUncapped := by
    norm_num [greatestUncapped, greatestProduct, Percent.greatest]
  rw [hexact, hcap, huncapped]
  refine ⟨feeOf_eq_min hamount percent, fun hleast hgreatest => ?_⟩
  have hpercent : Percent.least ≤ percent ∧ percent ≤ Percent.greatest := ⟨hleast, hgreatest⟩
  have hfee := feeOf_eq_min hamount percent
  refine ⟨_, hfee, fun hle => ?_, (feeOf_bounds hamount hpercent hfee).2, ?_⟩
  · have hle : amount ≤ greatestUncapped :=
      hle.elim id fun hbits => le_trans hbits greatestAmount_le_greatestUncapped
    rw [feeOf_of_le_greatestUncapped hamount hle hpercent] at hfee
    exact ⟨product_le_greatestProduct hamount hle hpercent, (Except.ok.inj hfee).symm⟩
  · intro more higher hmore hhigher _
    have hfee' := feeOf_eq_min (hamount.trans hmore) higher
    exact ⟨_, hfee', feeOf_mono hamount hmore (by omega) hhigher hfee hfee'⟩

/-- From the greatest amount of 128 bits, far below the cap, to an amount that is capped. -/
theorem feeOf_closed_form_across_cap :
    let amount : Int := 2 ^ 128 - 1
    let more : Int := 2 ^ 256
    0 ≤ amount ∧ (1 : Int) ≤ 999 ∧ (999 : Int) ≤ 1000 ∧ amount ≤ 2 ^ 128 - 1 ∧ amount ≤ more ∧
      ∃ fee, feeOf amount 999 = .ok fee ∧ fee = ⌊(amount * (999 : ℤ) / 10000 : ℚ)⌋ ∧
        10 * fee ≤ amount ∧
        ∃ fee', feeOf more 1000 = .ok fee' ∧ fee' = greatestProduct / feeDenominator ∧
          fee ≤ fee' := by
  intro amount more
  have hamount : 0 ≤ amount := by decide
  have hmore : amount ≤ more := by decide
  obtain ⟨-, hrest⟩ := feeOf_closed_form hamount 999
  obtain ⟨fee, hfee, hbelow, htenth, hmono⟩ := hrest (by decide) (by decide)
  obtain ⟨fee', hfee', hle⟩ := hmono more 1000 hmore (by decide) (by decide)
  have hcapped : feeOf more 1000 = .ok (greatestProduct / feeDenominator) := rfl
  refine ⟨hamount, by decide, by decide, Int.le_refl _, hmore, fee, hfee, ?_, htenth, fee', hfee',
    ?_, hle⟩
  · exact (hbelow (.inr (Int.le_refl _))).2
  · exact Except.ok.inj (hfee'.symm.trans hcapped)

namespace FeeState.Valid

/-- Whatever a valid state charges for an amount is a tenth of it at most. -/
theorem fee_bounds {s : FeeState} (hs : s.Valid) {t : Transfer} (hamount : 0 ≤ t.amount)
    (h : s.fee t = .ok value) : 0 ≤ 10 * value ∧ 10 * value ≤ t.amount := by
  rw [fee] at h
  split at h
  · exact feeOf_bounds hamount hs.percent h
  · cases h
    exact ⟨Int.le_refl 0, hamount⟩

end FeeState.Valid

end TransferFees
