import Mathlib.Data.List.Induction
import TransferFees.Numeral

/-!
# Canonical numerals

The text that is written for a number is the only one of its numerals without needless zeros in
front (`Numeral.isCanonical_text`). Reading it gives the number back, and any other numeral of the
number is the same text with zeros in front (`Numeral.digits_value`).
-/

namespace TransferFees.Numeral

/-- The text is made of digits, stands for `n`, and does not begin with a zero unless it is the
numeral of zero. -/
structure IsCanonical (s : String) (n : Nat) : Prop where
  digits : isNumeral s.toList = true
  value : Numeral.value s.toList = n
  leading : s.toList.head? = some '0' → s = "0"

theorem isNumeral_iff {cs : List Char} :
    isNumeral cs = true ↔ cs ≠ [] ∧ ∀ c ∈ cs, c.isDigit = true := by
  simp [isNumeral]

theorem value_digits (n : Nat) : value (digits n) = n :=
  Nat.ofDigitChars_toDigits (by decide) (by decide)

theorem isNumeral_digits (n : Nat) : isNumeral (digits n) = true := by
  refine isNumeral_iff.2 ⟨Nat.toDigits_ne_nil, ?_⟩
  intro c hc
  exact Nat.isDigit_of_mem_toDigits (by decide) (by decide) hc

/-- The induction takes the last digit off, so the first one stays until it is the only one. -/
theorem eq_zero_of_head_digits (n : Nat) (h : (digits n).head? = some '0') : n = 0 := by
  induction n using Nat.strongRecOn with
  | ind n ih =>
      by_cases hn : n < 10
      · have hone : digits n = [Nat.digitChar n] := Nat.toDigits_of_lt_base hn
        rw [hone] at h
        have hdigit : ∀ m < 10, Nat.digitChar m = '0' → m = 0 := by decide
        exact hdigit n hn (Option.some.inj h)
      · have hlast : digits n = digits (n / 10) ++ [Nat.digitChar (n % 10)] :=
          Nat.toDigits_of_base_le (by decide) (by omega)
        have hne : digits (n / 10) ≠ [] := Nat.toDigits_ne_nil
        obtain ⟨c, rest, hfront⟩ := List.exists_cons_of_ne_nil hne
        have hhead : (digits (n / 10)).head? = some '0' := by
          rw [hlast, hfront] at h
          rw [hfront]
          exact h
        have hzero := ih (n / 10) (by omega) hhead
        omega

/-- The text of a number is the one that spends no digit on nothing. -/
theorem isCanonical_text (n : Nat) : IsCanonical (text n) n where
  digits := by
    rw [text, String.toList_ofList]
    exact isNumeral_digits n
  value := by
    rw [text, String.toList_ofList, value_digits]
  leading := by
    intro h
    rw [text, String.toList_ofList] at h
    obtain rfl := eq_zero_of_head_digits n h
    rfl

/-! ## Zeros in front -/

theorem digitValue_lt {c : Char} (h : c.isDigit = true) : digitValue c < 10 := by
  have hbounds := Char.isDigit_iff_toNat.1 h
  simp only [digitValue, Char.reduceToNat] at hbounds ⊢
  omega

theorem digitChar_digitValue {c : Char} (h : c.isDigit = true) :
    Nat.digitChar (digitValue c) = c := by
  have htable : ∀ k < 10, Nat.digitChar k = Char.ofNat (48 + k) := by decide
  have hbounds := Char.isDigit_iff_toNat.1 h
  have hplace : 48 + digitValue c = c.toNat := by
    simp only [digitValue, Char.reduceToNat] at hbounds ⊢
    omega
  rw [htable _ (digitValue_lt h), hplace, Char.ofNat_toNat]

/-- The value of two texts of digits after one another. -/
theorem value_append (xs ys : List Char) :
    value (xs ++ ys) = placeValue ys.length * value xs + value ys := by
  show Nat.ofDigitChars 10 (xs ++ ys) 0 = _
  rw [Nat.ofDigitChars_append, Nat.ofDigitChars_eq_ofDigitChars_zero]
  rfl

theorem value_zeros (k : Nat) : value (List.replicate k '0') = 0 := by
  show Nat.ofDigitChars 10 _ 0 = 0
  simp [Nat.ofDigitChars_replicate_zero]

/-- The numeral without the zeros in front, but for one if there is nothing else. -/
def withoutZeros (cs : List Char) : List Char :=
  match cs.dropWhile (· == '0') with
  | [] => ['0']
  | c :: rest => c :: rest

/-- Zeros in front count for nothing. -/
theorem value_dropWhile (cs : List Char) : value (cs.dropWhile (· == '0')) = value cs := by
  induction cs with
  | nil => rfl
  | cons c rest ih =>
      by_cases hc : c = '0'
      · subst hc
        have hrest : value ('0' :: rest) = value rest := by simp [value, digitValue]
        simp [hrest, ih]
      · simp [hc]

/-- A numeral that does not begin with a zero is the text of its value. The induction takes the last
digit off; what is left begins with the same digit. -/
theorem digits_value_of_head {cs : List Char} (hdigits : ∀ c ∈ cs, c.isDigit = true)
    (hne : cs ≠ []) (hhead : cs.head? ≠ some '0') : digits (value cs) = cs := by
  induction cs using List.reverseRecOn with
  | nil => exact absurd rfl hne
  | append_singleton front c ih =>
      have hc : c.isDigit = true := hdigits c (by simp)
      have hlt := digitValue_lt hc
      rw [value_append_singleton]
      cases front with
      | nil =>
          rw [value_nil, Nat.mul_zero, Nat.zero_add, digits, Nat.toDigits_of_lt_base hlt,
            digitChar_digitValue hc, List.nil_append]
      | cons b rest =>
          have hfront : digits (value (b :: rest)) = b :: rest := by
            refine ih (fun d hd => hdigits d (List.mem_append_left _ hd)) (by simp) ?_
            simpa using hhead
          have hpos : value (b :: rest) ≠ 0 := by
            intro hzero
            rw [hzero] at hfront
            have hb : b = '0' := (List.cons.inj hfront).1.symm
            simp [hb] at hhead
          have hquotient :
              (10 * value (b :: rest) + digitValue c) / 10 = value (b :: rest) := by omega
          have hlast : (10 * value (b :: rest) + digitValue c) % 10 = digitValue c := by omega
          rw [digits, Nat.toDigits_of_base_le (by decide) (by omega), hquotient, hlast,
            digitChar_digitValue hc]
          exact congrArg (· ++ [c]) hfront

/-- **Zeros in front are all that numerals of one number differ in.** -/
theorem digits_value {cs : List Char} (h : ∀ c ∈ cs, c.isDigit = true) :
    digits (value cs) = withoutZeros cs := by
  rw [← value_dropWhile, withoutZeros]
  split
  · rename_i hnone
    rw [hnone]
    rfl
  · rename_i c rest hsome
    rw [hsome]
    refine digits_value_of_head (fun d hd => ?_) (by simp) ?_
    · exact h d ((List.dropWhile_suffix _).subset (hsome ▸ hd))
    · have hhead := List.head?_dropWhile_not (· == '0') cs
      simpa [hsome] using hhead

theorem signedText_natCast (n : Nat) : signedText (n : Int) = text n := by
  rw [signedText, if_neg (by omega), Int.natAbs_natCast]

end TransferFees.Numeral
