/-!
# UTF-8

Characters as sequences of octets. `encode` writes the one, two, three or four octets of each
character. `decode` reads any sequence of octets: where no character can be read it gives the
replacement character `U+FFFD`, one for each longest stretch that began a character, and goes on
with the octet that did not fit.

The reader keeps what it has seen of an unfinished character as a `Pending`: the bits so far, the
number of octets still owed, and the range the next of them has to lie in. The range of the second
octet is what rules out overlong forms, surrogates and values above `U+10FFFF`.
-/

namespace TransferFees.Text.Utf8

/-- What stands for octets that form no character. -/
def replacement : Char := '\uFFFD'

/-- The octets of one character. -/
def encodeChar (c : Char) : List UInt8 :=
  let n := c.toNat
  if n < 0x80 then [UInt8.ofNat n]
  else if n < 0x800 then
    [UInt8.ofNat (0xC0 + n / 0x40), UInt8.ofNat (0x80 + n % 0x40)]
  else if n < 0x10000 then
    [UInt8.ofNat (0xE0 + n / 0x1000), UInt8.ofNat (0x80 + n / 0x40 % 0x40),
      UInt8.ofNat (0x80 + n % 0x40)]
  else
    [UInt8.ofNat (0xF0 + n / 0x40000), UInt8.ofNat (0x80 + n / 0x1000 % 0x40),
      UInt8.ofNat (0x80 + n / 0x40 % 0x40), UInt8.ofNat (0x80 + n % 0x40)]

/-- The octets of a text. -/
def encode (cs : List Char) : List UInt8 := cs.flatMap encodeChar

/-- A character of which some octets have been read. -/
structure Pending where
  /-- The bits read so far. -/
  bits : Nat
  /-- How many octets are still owed, the next one among them. -/
  owed : Nat
  /-- The least value of the next octet. -/
  least : Nat
  /-- The greatest value of the next octet. -/
  greatest : Nat

/-- The character that a first octet above `0x7F` begins, if it begins one. -/
def Pending.ofFirst (b : Nat) : Option Pending :=
  if 0xC2 ≤ b ∧ b ≤ 0xDF then some ⟨b - 0xC0, 1, 0x80, 0xBF⟩
  else if b = 0xE0 then some ⟨0, 2, 0xA0, 0xBF⟩
  else if b = 0xED then some ⟨0xD, 2, 0x80, 0x9F⟩
  else if 0xE1 ≤ b ∧ b ≤ 0xEF then some ⟨b - 0xE0, 2, 0x80, 0xBF⟩
  else if b = 0xF0 then some ⟨0, 3, 0x90, 0xBF⟩
  else if 0xF1 ≤ b ∧ b ≤ 0xF3 then some ⟨b - 0xF0, 3, 0x80, 0xBF⟩
  else if b = 0xF4 then some ⟨4, 3, 0x80, 0x8F⟩
  else none

/-- The unfinished character after one more octet of it. -/
def Pending.push (p : Pending) (b : Nat) : Pending :=
  ⟨p.bits * 0x40 + (b - 0x80), p.owed - 1, 0x80, 0xBF⟩

/-- A first octet: the characters it gives at once, and the one it leaves unfinished. -/
def begin (b : Nat) : List Char × Option Pending :=
  if b < 0x80 then ([Char.ofNat b], none)
  else match Pending.ofFirst b with
    | some p => ([], some p)
    | none => ([replacement], none)

/-- The characters of the octets that follow an unfinished character, if there is one. -/
def decodeFrom : Option Pending → List UInt8 → List Char
  | none, [] => []
  | some _, [] => [replacement]
  | none, b :: rest =>
    let (out, next) := begin b.toNat
    out ++ decodeFrom next rest
  | some p, b :: rest =>
    if p.least ≤ b.toNat ∧ b.toNat ≤ p.greatest then
      if p.owed = 1 then Char.ofNat (p.push b.toNat).bits :: decodeFrom none rest
      else decodeFrom (some (p.push b.toNat)) rest
    else
      let (out, next) := begin b.toNat
      replacement :: out ++ decodeFrom next rest

/-- The characters of a sequence of octets. -/
def decode (octets : List UInt8) : List Char := decodeFrom none octets

end TransferFees.Text.Utf8
