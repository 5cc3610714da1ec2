/-!
# Decimal numerals

Natural numbers and integers as texts of ASCII digits, and back. The value of a text is positional
and defined for every list of characters; what counts is that it is applied to digits only.
-/

namespace TransferFees.Numeral

/-- The value of one digit. -/
def digitValue (c : Char) : Nat := c.toNat - '0'.toNat

/-- The value of a list of digits, with leading zeros or none; an empty list has value zero. -/
def value (cs : List Char) : Nat := cs.foldl (fun n c => 10 * n + digitValue c) 0

/-- What a digit counts that has `k` digits behind it: the power of ten. -/
def placeValue (k : Nat) : Nat := Nat.pow 10 k

/-- The digits of a number, without leading zeros; zero has one digit. -/
def digits (n : Nat) : List Char := Nat.toDigits 10 n

/-- How many digits a number has. -/
def length (n : Nat) : Nat := (digits n).length

/-- The canonical text of a natural number. -/
def text (n : Nat) : String := String.ofList (digits n)

/-- The canonical text of an integer: a minus sign only below zero. -/
def signedText (z : Int) : String :=
  if z < 0 then "-" ++ text z.natAbs else text z.natAbs

/-- Two digits for a number below one hundred. -/
def twoDigits (n : Nat) : List Char := [Nat.digitChar (n / 10 % 10), Nat.digitChar (n % 10)]

/-- Whether a list of characters is a text of one ASCII digit or more. -/
def isNumeral (cs : List Char) : Bool := !cs.isEmpty && cs.all Char.isDigit

/-- The integer that a text of digits with or without a minus sign stands for. -/
def integer? : List Char → Option Int
  | '-' :: cs => if isNumeral cs then some (-(value cs : Int)) else none
  | cs => if isNumeral cs then some (value cs : Int) else none

theorem value_nil : value [] = 0 := rfl

/-- One more digit at the end: ten times the value, and the digit. -/
theorem value_append_singleton (cs : List Char) (c : Char) :
    value (cs ++ [c]) = 10 * value cs + digitValue c := by
  simp [value]

end TransferFees.Numeral
