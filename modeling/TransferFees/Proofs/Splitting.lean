import Mathlib.Algebra.Order.BigOperators.Group.List
import TransferFees.Proofs.Fees

/-!
# Splitting a transfer

Every fee is rounded down, so a transfer in several pieces may cost less than the same transfer as a
whole. It never costs more, and how much less is bounded: two pieces lose one unit at most
(`exactFee_add`), and so each further piece loses one at most (`exactFee_sum`).

Beyond the cap the fee of the whole falls behind that of the pieces. The amounts that requests can
carry do not come near it, and neither do their pieces, so what is charged for all of them is bounded
in the same way (`FeeState.fee_of_split`).
-/

namespace TransferFees

/-! ## Without the cap -/

/-- The fee of an amount at a percent in hundredths, if there were no cap. -/
def exactFee (percent amount : Int) : Int := percent * amount / feeDenominator

/-- Two amounts are charged as much as their sum, or one unit less. -/
theorem exactFee_add (percent a b : Int) :
    exactFee percent a + exactFee percent b ≤ exactFee percent (a + b) ∧
      exactFee percent (a + b) ≤ exactFee percent a + exactFee percent b + 1 := by
  simp only [exactFee, feeDenominator, Int.mul_add]
  omega

/-- The induction is on the amounts. Each but the last adds its own rounding to that of the rest. -/
theorem exactFee_sum (percent : Int) {amounts : List Int} (h : amounts ≠ []) :
    (amounts.map (exactFee percent)).sum ≤ exactFee percent amounts.sum ∧
      exactFee percent amounts.sum ≤
        (amounts.map (exactFee percent)).sum + (amounts.length - 1) := by
  induction amounts with
  | nil => exact absurd rfl h
  | cons a rest ih =>
      rw [List.map_cons, List.sum_cons, List.sum_cons, List.length_cons]
      cases rest with
      | nil => simp
      | cons b others =>
          obtain ⟨hleast, hgreatest⟩ := ih (by simp)
          obtain ⟨hstepLeast, hstepGreatest⟩ := exactFee_add percent a (b :: others).sum
          omega

/-! ## Transfers -/

/-- The pieces are transfers of the same token and together of the same amount. Each may go to a
network and an address of its own. -/
structure Transfer.IsSplit (whole : Transfer) (pieces : List Transfer) : Prop where
  nonempty : pieces ≠ []
  token : ∀ piece ∈ pieces, piece.token = whole.token
  nonneg : ∀ piece ∈ pieces, 0 ≤ piece.amount
  total : (pieces.map Transfer.amount).sum = whole.amount

namespace Transfer.IsSplit

variable {whole : Transfer} {pieces : List Transfer}

/-- No piece is more than the whole, for none is negative. -/
theorem le_whole (h : whole.IsSplit pieces) {piece : Transfer} (hpiece : piece ∈ pieces) :
    piece.amount ≤ whole.amount := by
  rw [← h.total]
  exact List.single_le_sum (List.forall_mem_map.2 h.nonneg) _ (List.mem_map_of_mem hpiece)

theorem whole_nonneg (h : whole.IsSplit pieces) : 0 ≤ whole.amount := by
  rw [← h.total]
  exact List.sum_nonneg (List.forall_mem_map.2 h.nonneg)

end Transfer.IsSplit

namespace FeeState

variable {s : FeeState}

/-- Up to the greatest amount the cap never counts. -/
theorem fee_eq_exactFee (hpercent : Percent.least ≤ s.percent ∧ s.percent ≤ Percent.greatest)
    {t : Transfer} (hsupported : t.token ∈ s.tokens) (hamount : 0 ≤ t.amount)
    (hbits : t.amount ≤ greatestAmount) : s.fee t = .ok (exactFee s.percent t.amount) := by
  rw [fee, if_pos hsupported]
  exact feeOf_of_le_greatestAmount hamount hbits hpercent

/-- **Splitting a transfer never raises what is charged, and saves one unit at most for each further
piece.** -/
theorem fee_of_split (hleast : 1 ≤ s.percent) (hgreatest : s.percent ≤ 1000) {whole : Transfer}
    (hsupported : whole.token ∈ s.tokens) {pieces : List Transfer} (hsplit : whole.IsSplit pieces)
    (hbits : whole.amount ≤ 2 ^ 128 - 1) :
    ∃ fees total, pieces.mapM s.fee = .ok fees ∧ s.fee whole = .ok total ∧
      fees.sum ≤ total ∧ total ≤ fees.sum + (pieces.length - 1) := by
  have hpercent : Percent.least ≤ s.percent ∧ s.percent ≤ Percent.greatest := ⟨hleast, hgreatest⟩
  have hpieces : ∀ piece ∈ pieces, s.fee piece = .ok (exactFee s.percent piece.amount) := by
    intro piece hpiece
    refine fee_eq_exactFee hpercent ?_ (hsplit.nonneg piece hpiece) ?_
    · rw [hsplit.token piece hpiece]
      exact hsupported
    · exact (hsplit.le_whole hpiece).trans hbits
  have hwhole := fee_eq_exactFee hpercent hsupported hsplit.whole_nonneg hbits
  have hamounts : pieces.map Transfer.amount ≠ [] := by simpa using hsplit.nonempty
  have hsum := exactFee_sum s.percent hamounts
  rw [hsplit.total, List.map_map, List.length_map] at hsum
  exact ⟨_, _, Except.mapM_eq_ok hpieces, hwhole, hsum⟩

/-- Three times nineteen at five percent cost nothing, and fifty-seven at once cost two, which is as
much as three pieces can save. -/
theorem fee_of_split_nineteens :
    let s : FeeState := ⟨"owner.near", 500, .ofList ["usdt.near"]⟩
    let transfer (network : String) (amount : Int) : Transfer := ⟨amount, "usdt.near", network, "x"⟩
    let pieces := [transfer "aurora" 19, transfer "near" 19, transfer "aurora" 19]
    let whole := transfer "aurora" 57
    1 ≤ s.percent ∧ s.percent ≤ 1000 ∧ whole.token ∈ s.tokens ∧ whole.IsSplit pieces ∧
      whole.amount ≤ 2 ^ 128 - 1 ∧ pieces.mapM s.fee = .ok [0, 0, 0] ∧ s.fee whole = .ok 2 ∧
      [0, 0, 0].sum ≤ (2 : Int) ∧ (2 : Int) ≤ [0, 0, 0].sum + (pieces.length - 1) := by
  intro s transfer pieces whole
  have hsupported : whole.token ∈ s.tokens := by decide
  have hsplit : whole.IsSplit pieces := ⟨by simp [pieces], by simp [pieces, whole, transfer], by
    simp [pieces, transfer], by simp [pieces, whole, transfer]⟩
  have hbits : whole.amount ≤ 2 ^ 128 - 1 := by decide
  obtain ⟨fees, total, hfees, htotal, hle, hge⟩ :=
    fee_of_split (s := s) (by decide) (by decide) hsupported hsplit hbits
  have hnone : pieces.mapM s.fee = .ok [0, 0, 0] := rfl
  have htwo : s.fee whole = .ok 2 := rfl
  obtain rfl := Except.ok.inj (hfees.symm.trans hnone)
  obtain rfl := Except.ok.inj (htotal.symm.trans htwo)
  exact ⟨by decide, by decide, hsupported, hsplit, hbits, hnone, htwo, hle, hge⟩

end FeeState

end TransferFees
