import TransferFees.Numeral
import TransferFees.Text.Blank

/-!
# Texts of integers

The texts that stand for an integer where a program is generous. A canonical text is a minus sign or
none and digits without leading zeros. A text that is not canonical is first brought into that form
(`canonical?`):

* blanks at its ends are dropped, then a plus sign, or a minus sign that is kept;
* leading zeros are dropped, together with the underscores among them, but one zero is left if there
  is nothing else, or if a point follows; behind the zeros a minus sign may stand as well;
* a point followed by zeros alone, by one at least, is dropped;
* underscores are dropped, unless one stands at an end or two stand together.

A canonical text of more than 4300 digits is refused as too long; a minus sign is not counted.
-/

namespace TransferFees.IntegerText

/-- Why a text does not stand for an integer. -/
inductive Error where
  /-- The text is not that of an integer. -/
  | notInteger
  /-- The integer has too many digits. -/
  | tooLong
  deriving DecidableEq, Repr

/-- The greatest number of digits of a canonical text. -/
def greatestLength : Nat := 4300

/-- The natural number of a canonical text without a sign. -/
def readDigits (cs : List Char) : Except Error Nat :=
  match cs with
  | [] => .error .notInteger
  | ['0'] => .ok 0
  | '0' :: _ => .error .notInteger
  | cs =>
    let digits := cs.takeWhile Char.isDigit
    if greatestLength < digits.length then .error .tooLong
    else if digits = [] ∨ digits.length < cs.length then .error .notInteger
    else .ok (Numeral.value digits)

/-- The integer of a canonical text. -/
def readCanonical : List Char → Except Error Int
  | '-' :: cs => (readDigits cs).map fun n => -(n : Int)
  | cs => (readDigits cs).map fun n => (n : Int)

/-- What follows the zeros and underscores that come after a first zero; `last` is the character
before. -/
def afterZeros (last : Char) : List Char → Option (List Char)
  | [] => some [last]
  | c :: rest =>
    if c = '0' ∨ c = '_' then afterZeros c rest
    else if c = '-' ∨ c.isDigit then some (c :: rest)
    else if c = '.' then some (last :: '.' :: rest)
    else none

/-- A text without leading zeros, if it begins with a digit. -/
def dropZeros : List Char → Option (List Char)
  | [] => none
  | c :: rest =>
    if c = '0' then afterZeros c rest
    else if c.isDigit then some (c :: rest)
    else none

/-- A text without a point and zeros at its end. -/
def dropFraction (cs : List Char) : List Char :=
  match (cs.dropWhile (· != '.')).drop 1 with
  | [] => cs
  | zeros => if zeros.all (· == '0') then cs.takeWhile (· != '.') else cs

/-- Whether two underscores stand together. -/
def hasDoubleUnderscore : List Char → Bool
  | '_' :: '_' :: _ => true
  | _ :: rest => hasDoubleUnderscore rest
  | [] => false

/-- A text without underscores, if they all stand alone and between other characters. -/
def dropUnderscores (cs : List Char) : List Char :=
  if cs.head? = some '_' ∨ cs.getLast? = some '_' ∨ hasDoubleUnderscore cs then cs
  else cs.filter (· != '_')

/-- A text brought into canonical form, as far as that is possible. -/
def canonical? (cs : List Char) : Option (List Char) :=
  match Text.trimBy Text.isWhiteSpace cs with
  | '+' :: rest => (dropZeros rest).map fun ds => dropUnderscores (dropFraction ds)
  | '-' :: rest => (dropZeros rest).map fun ds => dropUnderscores (dropFraction ('-' :: ds))
  | cs => (dropZeros cs).map fun ds => dropUnderscores (dropFraction ds)

/-- The integer that a text stands for. -/
def read (cs : List Char) : Except Error Int :=
  match readCanonical cs with
  | .error .notInteger =>
    match canonical? cs with
    | some cs => readCanonical cs
    | none => .error .notInteger
  | result => result

end TransferFees.IntegerText
