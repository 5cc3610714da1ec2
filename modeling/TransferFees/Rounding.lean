/-!
# Rounding

The natural number nearest to a quotient. From the middle between two numbers it is the even one.
-/

namespace TransferFees

/-- The natural number nearest to `n / d`, and from the middle the even neighbour. -/
def nearest (n d : Nat) : Nat :=
  let q := n / d
  let r := n % d
  if 2 * r < d then q
  else if d < 2 * r then q + 1
  else if q % 2 = 0 then q else q + 1

end TransferFees
