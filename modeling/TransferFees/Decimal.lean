import TransferFees.Numeral
import TransferFees.Rounding

/-!
# Decimal numbers

A decimal number is a sign, a coefficient and a power of ten. It keeps more than its value: `0.10`
has coefficient `10` and exponent `-2`, and there is a zero for every sign and exponent.

The exponents may be far too large for the powers of ten to be written out, so nothing here forms
the power of an exponent before it is known to be small:

* `adjusted` is the exponent of the first digit. Two positive numbers are compared by it first, and
  only numbers of the same adjusted exponent are brought to a common exponent.
* `truncate` and `roundAt` first see whether any digit is left at all.

Rounding goes to the nearest, and from the middle to the even neighbour.
-/

namespace TransferFees

/-- The number `±coefficient · 10 ^ exponent`. -/
structure Decimal where
  /-- Whether the number carries a minus sign; zero may carry one too. -/
  negative : Bool
  /-- The digits, as a natural number. -/
  coefficient : Nat
  /-- The power of ten that the last digit counts. -/
  exponent : Int
  deriving DecidableEq, Repr

/-- What a numeral may stand for: a decimal number, an infinity, or no number. -/
inductive Number where
  /-- A decimal number. -/
  | finite (d : Decimal)
  /-- An infinity of either sign. -/
  | infinite (negative : Bool)
  /-- Not a number; it carries a sign all the same. -/
  | notANumber (negative : Bool)
  deriving DecidableEq, Repr

/-- The precision and the least exponent of a calculation. -/
structure Precision where
  /-- How many digits a result may have. -/
  digits : Nat
  /-- The least adjusted exponent at which a result still has all its digits. -/
  leastAdjusted : Int

namespace Precision

/-- Calculations keep 28 digits, fully down to an adjusted exponent of -999999. -/
def standard : Precision := ⟨28, -999999⟩

/-- The least exponent that the last digit of a result may count. -/
def leastExponent (p : Precision) : Int := p.leastAdjusted - (p.digits - 1 : Nat)

end Precision

/-- `n / 10 ^ k`, rounded to the nearest and from the middle to the even neighbour. A power of ten
with more digits than `n` leaves less than a half. -/
def roundedQuotient (n k : Nat) : Nat :=
  if Numeral.length n < k then 0 else nearest n (Numeral.placeValue k)

namespace Decimal

/-- An integer as a decimal number. -/
def ofInt (z : Int) : Decimal := ⟨z < 0, z.natAbs, 0⟩

/-- The exponent of the first digit; zero counts as one digit. -/
def adjusted (d : Decimal) : Int := d.exponent + (Numeral.length d.coefficient : Int) - 1

/-- The number times `10 ^ k`, with the same digits. -/
def shift (d : Decimal) (k : Int) : Decimal := { d with exponent := d.exponent + k }

/-- Whether the number without its sign is at least `n`. -/
def reaches (d : Decimal) (n : Nat) : Bool :=
  if d.coefficient = 0 then n == 0
  else if n = 0 then true
  else if d.adjusted < (Numeral.length n : Int) - 1 then false
  else if (Numeral.length n : Int) - 1 < d.adjusted then true
  else n * Numeral.placeValue (-d.exponent).toNat ≤
    d.coefficient * Numeral.placeValue d.exponent.toNat

/-- The number without its sign, cut to a natural number. -/
def truncate (d : Decimal) : Nat :=
  if d.coefficient = 0 ∨ d.adjusted < 0 then 0
  else if 0 ≤ d.exponent then d.coefficient * Numeral.placeValue d.exponent.toNat
  else d.coefficient / Numeral.placeValue (-d.exponent).toNat

/-- The number rounded to a last digit that counts `10 ^ e`, where `e` is not below the exponent. -/
def roundAt (d : Decimal) (e : Int) : Decimal :=
  { d with coefficient := roundedQuotient d.coefficient (e - d.exponent).toNat, exponent := e }

/-- The number rounded to the digits and exponents that the precision allows. When rounding adds a
digit, as from `999` to `1000`, the last one, a zero, is dropped. -/
def round (p : Precision) (d : Decimal) : Decimal :=
  let least := max p.leastExponent
    (d.exponent + (Numeral.length d.coefficient : Int) - (p.digits : Int))
  if least ≤ d.exponent then d
  else
    let r := d.roundAt least
    if p.digits < Numeral.length r.coefficient then
      { r with coefficient := r.coefficient / 10, exponent := r.exponent + 1 }
    else r

/-- The number written to a last digit that counts `10 ^ e`, or nothing if that takes more digits
than the precision allows. -/
def quantize? (p : Precision) (e : Int) (d : Decimal) : Option Decimal :=
  let r := if e ≤ d.exponent then
      { d with
        coefficient := d.coefficient * Numeral.placeValue (d.exponent - e).toNat
        exponent := e }
    else d.roundAt e
  if Numeral.length r.coefficient ≤ p.digits then some r else none

/-- The text of a number whose last digit counts hundredths: a sign if negative, the whole part, a
point, two digits. -/
def hundredthsText (d : Decimal) : String :=
  (if d.negative then "-" else "") ++ Numeral.text (d.coefficient / 100) ++ "." ++
    String.ofList (Numeral.twoDigits (d.coefficient % 100))

end Decimal

end TransferFees
