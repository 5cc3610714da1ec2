import TransferFees.Decimal

/-!
# Double-precision numbers

Binary numbers of 53 digits, with a least exponent, below which there is only zero, and a bound,
above which there is only infinity. `ofDecimal` gives the double nearest to a decimal number, and
from the middle between two the one that ends in zero. It calculates with exact quotients of natural
numbers; decimal numbers that are far too large or far too small are told by their adjusted exponent
before any power of ten is formed.
-/

namespace TransferFees

/-- A number of double precision. -/
inductive Double where
  /-- The number `±significand · 2 ^ exponent`. -/
  | finite (negative : Bool) (significand : Nat) (exponent : Int)
  /-- An infinity of either sign. -/
  | infinite (negative : Bool)
  /-- Not a number. -/
  | notANumber
  deriving DecidableEq, Repr

namespace Double

/-- How many binary digits a significand has. -/
def precision : Nat := 53

/-- The power of two that the last digit of the smallest numbers counts. -/
def leastExponent : Int := -1074

/-- All finite numbers are less than two to this power. -/
def bound : Int := 1024

/-- The quotient `n / d` divided by `2 ^ e`, as numerator and denominator. -/
def scaled (n d : Nat) (e : Int) : Nat × Nat := (n <<< (-e).toNat, d <<< e.toNat)

/-- The exponent at which a positive quotient has 53 digits before the point: that at which it has
53 or 54 digits there, or the next one. Small quotients have fewer, at the least exponent. -/
def exponentOf (n d : Nat) : Int :=
  let guess := max ((n.log2 : Int) - (d.log2 : Int) - (precision : Int)) leastExponent
  let (a, b) := scaled n d guess
  if a / b < 1 <<< precision then guess else guess + 1

/-- The double nearest to a positive quotient, with a sign. -/
def ofQuotient (negative : Bool) (n d : Nat) : Double :=
  let e := exponentOf n d
  let (a, b) := scaled n d e
  let significand := nearest a b
  if bound ≤ e + (significand.log2 : Int) then .infinite negative
  else .finite negative significand e

/-- The double nearest to a decimal number. -/
def ofDecimal (d : Decimal) : Double :=
  if d.coefficient = 0 ∨ d.adjusted < -324 then .finite d.negative 0 0
  else if 308 < d.adjusted then .infinite d.negative
  else
    ofQuotient d.negative (d.coefficient * Numeral.placeValue d.exponent.toNat)
      (Numeral.placeValue (-d.exponent).toNat)

/-- The size of a finite number without its sign, if it has no fraction. -/
def wholeSize? (significand : Nat) (exponent : Int) : Option Nat :=
  let unit := 1 <<< (-exponent).toNat
  if significand % unit = 0 then some ((significand <<< exponent.toNat) / unit) else none

/-- Whether the number is finite. -/
def isFinite : Double → Bool
  | .finite .. => true
  | _ => false

/-- The exact value of a finite number, as a decimal number. -/
def toDecimal (negative : Bool) (significand : Nat) (exponent : Int) : Decimal :=
  ⟨negative, (significand <<< exponent.toNat) * Nat.pow 5 (-exponent).toNat, min exponent 0⟩

end Double

end TransferFees
