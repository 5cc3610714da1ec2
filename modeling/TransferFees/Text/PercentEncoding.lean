import TransferFees.Text.Utf8

/-!
# Percent-encoding

A text in which an octet may be written as `%` and two hexadecimal digits. `decode` replaces each
such triple by its octet and reads the whole as UTF-8; a `%` that two hexadecimal digits do not
follow stands for itself. `encode` writes every character outside a given class as the triples
of its UTF-8 octets, with capital letters.
-/

namespace TransferFees.Text.PercentEncoding

/-- The value of a hexadecimal digit. -/
def hexValue? (c : Char) : Option Nat :=
  if '0' ≤ c ∧ c ≤ '9' then some (c.toNat - '0'.toNat)
  else if 'a' ≤ c ∧ c ≤ 'f' then some (c.toNat - 'a'.toNat + 10)
  else if 'A' ≤ c ∧ c ≤ 'F' then some (c.toNat - 'A'.toNat + 10)
  else none

/-- The capital hexadecimal digit of a value below sixteen. -/
def hexDigit (n : Nat) : Char :=
  if n < 10 then Char.ofNat ('0'.toNat + n) else Char.ofNat ('A'.toNat + n - 10)

/-- The octets of a percent-encoded text. -/
def octets : List Char → List UInt8
  | [] => []
  | '%' :: a :: b :: rest =>
    match hexValue? a, hexValue? b with
    | some x, some y => UInt8.ofNat (16 * x + y) :: octets rest
    | _, _ => Utf8.encodeChar '%' ++ octets (a :: b :: rest)
  | c :: rest => Utf8.encodeChar c ++ octets rest

/-- The text that a percent-encoded text stands for. -/
def decode (s : String) : String := String.ofList (Utf8.decode (octets s.toList))

/-- An octet as `%` and two digits. -/
def triple (b : UInt8) : List Char := ['%', hexDigit (b.toNat / 16), hexDigit (b.toNat % 16)]

/-- A text with the characters outside the class `keep` written as triples. -/
def encodeExcept (keep : Char → Bool) (s : String) : String :=
  String.ofList <|
    s.toList.flatMap fun c => if keep c then [c] else (Utf8.encodeChar c).flatMap triple

/-- The characters that never need encoding: ASCII letters and digits, and four marks. -/
def isUnreserved (c : Char) : Bool :=
  c.isAlphanum || c == '-' || c == '_' || c == '.' || c == '~'

/-- One segment of a path: everything that is not unreserved is encoded. -/
def encode (s : String) : String := encodeExcept isUnreserved s

end TransferFees.Text.PercentEncoding
