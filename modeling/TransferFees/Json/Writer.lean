import TransferFees.Json
import TransferFees.Text.Utf16

/-!
# Writing JSON

The text of a value, without gaps and in ASCII: every other character is written as the escape of
its one or two UTF-16 units. What cannot be written as JSON is written so that it is read again as
the same value, as far as that goes: a broken text has lost its halves.
-/

namespace TransferFees.Json

/-- The escape of one UTF-16 unit, with four hexadecimal digits. -/
def unitEscape (u : Nat) : List Char :=
  ['\\', 'u', Nat.digitChar (u / 0x1000 % 16), Nat.digitChar (u / 0x100 % 16),
    Nat.digitChar (u / 0x10 % 16), Nat.digitChar (u % 16)]

/-- One character inside a text. -/
def escapeChar (c : Char) : List Char :=
  let n := c.toNat
  if c = '"' then ['\\', '"']
  else if c = '\\' then ['\\', '\\']
  else if 0x20 ≤ n ∧ n < 0x7F then [c]
  else (Text.Utf16.units c).flatMap unitEscape

/-- A text between quotes. -/
def writeText (s : String) : String :=
  "\"" ++ String.ofList (s.toList.flatMap escapeChar) ++ "\""

/-- A number with a point or an exponent: its exact value, always with an exponent. -/
def writeReal : Double → String
  | .finite negative significand exponent =>
    let d := Double.toDecimal negative significand exponent
    (if d.negative then "-" else "") ++ Numeral.text d.coefficient ++ "e" ++
      Numeral.signedText d.exponent
  | .infinite negative => if negative then "-Infinity" else "Infinity"
  | .notANumber => "NaN"

mutual

/-- The text of a value. -/
def write : Json → String
  | .null => "null"
  | .bool b => if b then "true" else "false"
  | .int n => Numeral.signedText n
  | .real x => writeReal x
  | .text s => writeText s
  | .brokenText shown => writeText shown
  | .list items => "[" ++ ",".intercalate (writeItems items) ++ "]"
  | .object fields => "\x7b" ++ ",".intercalate (writeFields fields) ++ "\x7d"
  | .brokenObject fields _ => "\x7b" ++ ",".intercalate (writeFields fields) ++ "\x7d"

/-- The texts of the items of a list. -/
def writeItems : List Json → List String
  | [] => []
  | v :: rest => write v :: writeItems rest

/-- The texts of the fields of an object. -/
def writeFields : List (String × Json) → List String
  | [] => []
  | (key, v) :: rest => (writeText key ++ ":" ++ write v) :: writeFields rest

end

end TransferFees.Json
