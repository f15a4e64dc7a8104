/-!
# Shortest decimal text of a binary fraction

A finite double stands for the interval of reals that round to it. Among the decimals in that
interval those with the fewest digits are the candidates, and of these the one nearest to the
double is taken. Everything here is exact arithmetic on natural numbers.
-/

namespace TaskDiagram.Decimal

/-- The nonnegative number `significand · 2 ^ exponent`. -/
structure Binary where
  significand : Nat
  exponent : Int
  deriving DecidableEq, Repr

/-- The nonnegative number `digits · 10 ^ exponent`. -/
structure Numeral where
  digits : Nat
  exponent : Int
  deriving DecidableEq, Repr

/-- What happens to a number halfway between two decimals. -/
inductive Tie where
  | toEven
  | up
  deriving DecidableEq, Repr

/-- The leading bit of a significand, which a double does not store. -/
def hiddenBit : Nat := 4503599627370496

def isNegative (x : Float) : Bool := x.toBits.toNat / hiddenBit / 2048 == 1

/-- The exponent as a double stores it; 2047 stands for what is no number. -/
def exponentField (x : Float) : Nat := x.toBits.toNat / hiddenBit % 2048

namespace Binary

/-- Magnitude of a finite double. -/
def ofFloat (x : Float) : Binary :=
  let field : Nat := exponentField x
  let fraction : Nat := x.toBits.toNat % hiddenBit
  if field == 0 then ⟨fraction, -1074⟩ else ⟨fraction + hiddenBit, (field : Int) - 1075⟩

/-- Whether the doubles below lie twice as densely as those above. -/
def isBoundary (b : Binary) : Bool :=
  b.significand == hiddenBit && b.exponent != -1074

end Binary

/-- The interval of reals that round to one double, in units of a quarter of its last place, with
the unit given as the fraction `scale / denominator`. The ends belong to it when `closed`. -/
structure Rounding where
  low : Nat
  value : Nat
  high : Nat
  scale : Nat
  denominator : Nat
  closed : Bool

namespace Rounding

def ofBinary (b : Binary) : Rounding :=
  let unit := b.exponent - 2
  { low := 4 * b.significand - (if b.isBoundary then 1 else 2)
    value := 4 * b.significand
    high := 4 * b.significand + 2
    scale := if 0 ≤ unit then Nat.pow 2 unit.toNat else 1
    denominator := if 0 ≤ unit then 1 else Nat.pow 2 (-unit).toNat
    closed := b.significand % 2 == 0 }

/-- The same interval measured in steps of `10 ^ k`. -/
def inSteps (r : Rounding) (k : Int) : Rounding :=
  if 0 ≤ k then { r with denominator := r.denominator * Nat.pow 10 k.toNat }
  else { r with scale := r.scale * Nat.pow 10 (-k).toNat }

/-- Whether the interval holds the whole number `d`. -/
def holds (r : Rounding) (d : Nat) : Bool :=
  let point := d * r.denominator
  if r.closed then r.low * r.scale ≤ point && point ≤ r.high * r.scale
  else r.low * r.scale < point && point < r.high * r.scale

/-- The whole number of the interval nearest to its value, if it holds one. -/
def nearest? (tie : Tie) (r : Rounding) : Option Nat :=
  let total := r.value * r.scale
  let below := total / r.denominator
  let rest := total % r.denominator
  match r.holds below, r.holds (below + 1) with
  | false, false => none
  | true, false => some below
  | false, true => some (below + 1)
  | true, true =>
      if 2 * rest < r.denominator then some below
      else if r.denominator < 2 * rest then some (below + 1)
      else match tie with
        | .up => some (below + 1)
        | .toEven => some (if below % 2 == 0 then below else below + 1)

/-- The largest `k ≤ start` such that the value is at least `10 ^ k`. -/
def leading (r : Rounding) : (fuel : Nat) → (start : Int) → Int
  | 0, k => k
  | fuel + 1, k =>
      let steps := r.inSteps k
      if steps.denominator ≤ steps.value * steps.scale then k else leading r fuel (k - 1)

/-- The first of the grids `10 ^ k`, `10 ^ (k - 1)`, … that meets the interval. -/
def firstHit (tie : Tie) (r : Rounding) : (fuel : Nat) → (k : Int) → Numeral
  | 0, k => ⟨0, k⟩
  | fuel + 1, k =>
      match (r.inSteps k).nearest? tie with
      | some d => ⟨d, k⟩
      | none => firstHit tie r fuel (k - 1)

end Rounding

/-- Moves trailing zeros of the digits into the exponent. -/
def Numeral.trimmed : (fuel : Nat) → Numeral → Numeral
  | 0, n => n
  | fuel + 1, n =>
      if n.digits % 10 == 0 && n.digits != 0 then trimmed fuel ⟨n.digits / 10, n.exponent + 1⟩
      else n

/-- The shortest decimal that rounds to a positive double. -/
def shortest (tie : Tie) (b : Binary) : Numeral :=
  let r := Rounding.ofBinary b
  let first := r.leading 700 309
  (r.firstHit tie 20 first).trimmed 400

end TaskDiagram.Decimal
