import TransferFees.Decimal

/-!
# Numerals with a point and an exponent

The texts that name a number: a sign or none, then one of

* `inf`, `infinity` or `nan`, in letters of either case;
* ASCII digits, with a point before, among or after them or without one, and at the end an exponent
  or none: the letter `e` in either case, a sign or none, and ASCII digits.

There has to be a digit beside the point. Reading is exact as long as the number fits into the
range of representable exponents. A number outside it is read as zero, or as an infinity when it is
too large and not zero.
-/

namespace TransferFees

/-- The exponents that a decimal number may have. -/
structure ExponentRange where
  /-- The greatest adjusted exponent. -/
  greatestAdjusted : Int
  /-- The least exponent. -/
  leastExponent : Int

/-- Adjusted exponents go up to `10^18 - 1`, exponents down to `-(2·10^18 - 3)`. -/
def ExponentRange.standard : ExponentRange := ⟨999999999999999999, -1999999999999999997⟩

namespace Number

/-- The number with the given parts; outside the range of exponents an infinity, or the zero with
exponent zero. The sign is kept in all cases. -/
def ofParts (range : ExponentRange) (d : Decimal) : Number :=
  if range.greatestAdjusted < d.adjusted then
    if d.coefficient = 0 then .finite ⟨d.negative, 0, 0⟩ else .infinite d.negative
  else if d.exponent < range.leastExponent then .finite ⟨d.negative, 0, 0⟩
  else .finite d

/-- The sign at the front of a text, and the text after it. -/
def takeSign : List Char → Bool × List Char
  | '-' :: r => (true, r)
  | '+' :: r => (false, r)
  | r => (false, r)

/-- The exponent that ends a numeral; nothing written counts as zero. -/
def exponent? : List Char → Option Int
  | [] => some 0
  | c :: r =>
    if c = 'e' ∨ c = 'E' then
      let (negative, ds) := takeSign r
      if Numeral.isNumeral ds then
        some (if negative then -(Numeral.value ds : Int) else (Numeral.value ds : Int))
      else none
    else none

/-- The digits before the point, the digits after it, and what is left of the text. -/
def takeDigits (cs : List Char) : List Char × List Char × List Char :=
  let whole := cs.takeWhile Char.isDigit
  match cs.dropWhile Char.isDigit with
  | '.' :: r => (whole, r.takeWhile Char.isDigit, r.dropWhile Char.isDigit)
  | r => (whole, [], r)

/-- The number that digits, point and exponent stand for, with a sign read before them. -/
def ofDigits? (negative : Bool) (cs : List Char) : Option Number :=
  let (whole, fraction, rest) := takeDigits cs
  if whole = [] ∧ fraction = [] then none
  else (exponent? rest).map fun e =>
    ofParts .standard ⟨negative, Numeral.value (whole ++ fraction), e - fraction.length⟩

/-- The number that a text names, if it names one. -/
def ofLiteral? (cs : List Char) : Option Number :=
  let (negative, body) := takeSign cs
  let word := body.map Char.toLower
  if word = "inf".toList ∨ word = "infinity".toList then some (.infinite negative)
  else if word = "nan".toList then some (.notANumber negative)
  else ofDigits? negative body

end Number

end TransferFees
