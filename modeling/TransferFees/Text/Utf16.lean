import TransferFees.Text.Utf8

/-!
# UTF-16

Characters as units of sixteen bits: one unit for a character below `U+10000`, and for any other a
first and a second half, which lie in two ranges that no character has.

A sequence of units may hold halves that stand alone, and so may a text that is made of escapes of
units. Such a text is a list of points: characters, and `none` for a half that stands alone.
-/

namespace TransferFees.Text

/-- A text that may hold halves of characters, each written as `none`. -/
abbrev Points := List (Option Char)

namespace Points

/-- The characters, if there are no halves. -/
def whole? : Points → Option (List Char)
  | [] => some []
  | none :: _ => none
  | some c :: rest => (whole? rest).map (c :: ·)

/-- The text with the replacement character for each half. -/
def shown (p : Points) : String := String.ofList (p.map (·.getD Utf8.replacement))

end Points

namespace Utf16

/-- The units of one character. -/
def units (c : Char) : List Nat :=
  let n := c.toNat
  if n < 0x10000 then [n] else [0xD800 + (n - 0x10000) / 0x400, 0xDC00 + (n - 0x10000) % 0x400]

/-- Whether a unit is the first half of a character. -/
def isFirst (u : Nat) : Bool := 0xD800 ≤ u && u < 0xDC00

/-- Whether a unit is the second half of a character. -/
def isSecond (u : Nat) : Bool := 0xDC00 ≤ u && u < 0xE000

/-- The character of two halves. -/
def join (u v : Nat) : Char := Char.ofNat (0x10000 + (u - 0xD800) * 0x400 + (v - 0xDC00))

/-- The point that a unit alone stands for. -/
def single (u : Nat) : Option Char :=
  if isFirst u || isSecond u then none else some (Char.ofNat u)

/-- The points of a sequence of units. -/
def decode : List Nat → Points
  | [] => []
  | [u] => [single u]
  | u :: v :: rest =>
    if isFirst u && isSecond v then some (join u v) :: decode rest
    else single u :: decode (v :: rest)

end Utf16

end TransferFees.Text
