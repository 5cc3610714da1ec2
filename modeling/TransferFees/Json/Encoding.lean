import TransferFees.Text.Utf16

/-!
# The encoding of JSON text

JSON text may come in UTF-8, UTF-16 or UTF-32. It begins with ASCII characters, so the zeros among
its first octets tell which encoding it is in, and in what order the octets of a unit stand.
-/

namespace TransferFees.Json

/-- The order in which the octets of a unit stand. -/
inductive OctetOrder where
  /-- The most significant octet comes first. -/
  | falling
  /-- The least significant octet comes first. -/
  | rising
  deriving DecidableEq, Repr

/-- An encoding of JSON text. -/
inductive Encoding where
  /-- One octet a unit. -/
  | utf8
  /-- Two octets a unit. -/
  | utf16 (order : OctetOrder)
  /-- Four octets a unit, and one unit a character. -/
  | utf32 (order : OctetOrder)
  deriving DecidableEq, Repr

/-- The encoding that the first octets of a text tell of. -/
def Encoding.ofOctets : List UInt8 → Encoding
  | a :: b :: c :: d :: _ =>
    if a = 0 then if b = 0 then .utf32 .falling else .utf16 .falling
    else if b = 0 then if c = 0 ∧ d = 0 then .utf32 .rising else .utf16 .rising
    else .utf8
  | [a, b] => if a = 0 then .utf16 .falling else if b = 0 then .utf16 .rising else .utf8
  | _ => .utf8

/-- The value of the octets of one unit. -/
def OctetOrder.value (order : OctetOrder) (octets : List UInt8) : Nat :=
  let falling := match order with
    | .falling => octets
    | .rising => octets.reverse
  falling.foldl (fun n b => 0x100 * n + b.toNat) 0

/-- The units of two octets, if none is left over. -/
def pairs? (order : OctetOrder) : List UInt8 → Option (List Nat)
  | [] => some []
  | a :: b :: rest => (pairs? order rest).map (order.value [a, b] :: ·)
  | _ => none

/-- The units of four octets, if none is left over. -/
def quads? (order : OctetOrder) : List UInt8 → Option (List Nat)
  | [] => some []
  | a :: b :: c :: d :: rest => (quads? order rest).map (order.value [a, b, c, d] :: ·)
  | _ => none

/-- The points of JSON text whose octets, taken for UTF-8, are the characters `cs`. Without the
zeros of another encoding these are the characters, less a byte order mark in front. -/
def recode? (cs : List Char) : Option Text.Points :=
  let octets := Text.Utf8.encode cs
  match Encoding.ofOctets octets with
  | .utf8 =>
    match cs with
    | '\uFEFF' :: rest => some (rest.map some)
    | cs => some (cs.map some)
  | .utf16 order => (pairs? order octets).map Text.Utf16.decode
  | .utf32 order =>
    (quads? order octets).bind fun units =>
      if units.all (· < 0x110000) then some (units.map Text.Utf16.single) else none

end TransferFees.Json
