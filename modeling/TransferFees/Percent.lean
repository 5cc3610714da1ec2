import TransferFees.Decimal.Literal

/-!
# Percents

A percent is kept as a whole number of hundredths, so `500` stands for 5 %, and a fee percent lies
between `1` (0.01 %) and `1000` (10 %).

* `parse` reads a percent that a person wrote. It checks, in this order: that at most two characters
  follow the first point, that the text is a numeral, that the number is not negative and below the
  ceiling, and, after scaling, that it lies in the range. What lies below a hundredth is cut off.
* `format` writes a percent with two places.

Both calculate with the standard precision of 28 digits. Scaling rounds a longer coefficient to it
before the hundredths are cut off, and a percent that needs more than 28 digits has no text.
-/

namespace TransferFees.Percent

/-- The least fee percent, in hundredths. -/
def least : Int := 1

/-- The greatest fee percent, in hundredths. -/
def greatest : Int := 1000

/-- The percent of a fee state that names none, in hundredths. -/
def standard : Int := 500

/-- How many decimals a percent text may have. -/
def places : Nat := 2

/-- Why a text is not a fee percent. -/
inductive ParseError where
  /-- The text is empty. -/
  | emptyText
  /-- The text is no numeral. -/
  | notANumeral
  /-- More than two characters follow the first point. -/
  | tooManyDecimals
  /-- Below the least percent, negative, or not a number. -/
  | tooLow
  /-- Above the greatest percent. -/
  | tooHigh
  deriving DecidableEq, Repr

/-- The sentence that tells a person what is wrong. -/
def ParseError.message : ParseError → String
  | .emptyText => "cannot parse float from empty string"
  | .notANumeral => "invalid float literal"
  | .tooManyDecimals => "provided percent could contain only 2 decimals"
  | .tooLow => "provided percent is less than 0.01%"
  | .tooHigh => "provided percent is more than 10%"

/-- What follows the first point of a text. -/
def afterPoint (cs : List Char) : List Char := (cs.dropWhile (· != '.')).drop 1

/-- Refuses a text with too many characters after its first point, numeral or not. -/
def checkDecimals (text : String) : Except ParseError Unit :=
  if places < (afterPoint text.toList).length then .error .tooManyDecimals else .ok ()

/-- The number that a text names. -/
def parseNumber (text : String) : Except ParseError Number :=
  if text.toList = [] then .error .emptyText
  else match Number.ofLiteral? text.toList with
    | some number => .ok number
    | none => .error .notANumeral

/-- The hundredths of a number without a minus sign below the ceiling: scaled with the standard
precision, then cut to a whole number. -/
def hundredths (d : Decimal) : Nat := ((d.shift places).round .standard).truncate

/-- The fee percent that a number stands for. -/
def ofNumber : Number → Except ParseError Int
  | .notANumber _ => .error .tooLow
  | .infinite negative => .error (if negative then .tooLow else .tooHigh)
  | .finite d =>
    if d.negative then .error .tooLow
    else if d.reaches greatest.toNat then .error .tooHigh
    else
      let scaled : Int := hundredths d
      if scaled < least then .error .tooLow
      else if greatest < scaled then .error .tooHigh
      else .ok scaled

/-- The fee percent that a text stands for, in hundredths. -/
def parse (text : String) : Except ParseError Int := do
  checkDecimals text
  ofNumber (← parseNumber text)

/-- The text of a percent given in hundredths, or nothing if it takes more than 28 digits. -/
def format? (hundredths : Int) : Option String :=
  (((Decimal.ofInt hundredths).shift (-places)).round .standard).quantize? .standard (-places)
    |>.map Decimal.hundredthsText

end TransferFees.Percent
