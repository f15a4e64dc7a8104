import TaskDiagram.Decimal.Shortest
import TaskDiagram.Decimal.Word

/-!
# Whole doubles

Whether a double is a whole number is read off its significand and exponent, so the answer is
exact at any size.
-/

namespace TaskDiagram.Decimal

/-- The whole number a magnitude is, if it is one. -/
def Binary.whole? (b : Binary) : Option Nat :=
  if 0 ≤ b.exponent then some (b.significand * Nat.pow 2 b.exponent.toNat)
  else
    let unit := Nat.pow 2 (-b.exponent).toNat
    if b.significand % unit == 0 then some (b.significand / unit) else none

/-- The whole number a double is, if it is one. -/
def whole? (x : Float) : Option Int :=
  if exponentField x == 2047 then none
  else
    (Binary.ofFloat x).whole?.map fun n =>
      if isNegative x then -(n : Int) else n

/-- The nearest number of 64 bits with a sign. -/
def saturate (n : Int) : Int64 :=
  Int64.ofInt (if n < minInt64 then minInt64 else if maxInt64 < n then maxInt64 else n)

end TaskDiagram.Decimal
