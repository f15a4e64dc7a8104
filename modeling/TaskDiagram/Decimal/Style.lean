import TaskDiagram.Decimal.Shortest

/-!
# Written forms of a double

A style is a record of decisions: where positional notation ends, whether a whole number keeps a
point, and what is written for values that have no digits. Documents and messages differ only in
the record they use.
-/

namespace TaskDiagram.Decimal

/-- How a double is written. -/
structure Style where
  /-- Whether a number whose leading digit stands at `10 ^ e` is written positionally. -/
  positional : Int → Bool
  /-- Whether a whole number in positional notation ends in a point and a zero. -/
  keepPoint : Bool
  /-- Halfway cases between two shortest decimals. -/
  tie : Tie
  nan : String
  infinity : String
  negativeInfinity : String

/-- The digits of a numeral, most significant first. -/
def Numeral.digitList (n : Numeral) : List Char :=
  Nat.toDigits 10 n.digits

/-- Exponent of the leading digit. -/
def Numeral.leading (n : Numeral) : Int :=
  n.exponent + n.digitList.length - 1

/-- Digits with the point in its place. -/
def Numeral.positional (keepPoint : Bool) (n : Numeral) : List Char :=
  let ds := n.digitList
  if 0 ≤ n.exponent then
    ds ++ List.replicate n.exponent.toNat '0' ++ (if keepPoint then ['.', '0'] else [])
  else
    let places := (-n.exponent).toNat
    if places < ds.length then
      ds.take (ds.length - places) ++ '.' :: ds.drop (ds.length - places)
    else
      '0' :: '.' :: List.replicate (places - ds.length) '0' ++ ds

/-- One digit before the point, and the exponent with its sign. -/
def Numeral.scientific (n : Numeral) : List Char :=
  let e := n.leading
  let exponent := (if e < 0 then '-' else '+') :: Nat.toDigits 10 e.natAbs
  match n.digitList with
  | [] => []
  | [d] => d :: 'e' :: exponent
  | d :: ds => d :: '.' :: ds ++ 'e' :: exponent

namespace Style

/-- The written form of a double. -/
def text (style : Style) (x : Float) : String :=
  let negative := isNegative x
  if x.isNaN then style.nan
  else if x.isInf then if negative then style.negativeInfinity else style.infinity
  else
    let b := Binary.ofFloat x
    let n := if b.significand == 0 then ⟨0, 0⟩ else shortest style.tie b
    let body :=
      if style.positional n.leading then n.positional style.keepPoint
      else n.scientific
    String.ofList (if negative then '-' :: body else body)

/-- Numbers in documents: exponents beyond `10 ^ 15` and below `10 ^ -5`, a point always shown. -/
def document : Style where
  positional e := -5 ≤ e && e ≤ 15
  keepPoint := true
  tie := .toEven
  nan := "null"
  infinity := "null"
  negativeInfinity := "null"

/-- Numbers shown to people: never an exponent, no point behind a whole number. -/
def display : Style where
  positional _ := true
  keepPoint := false
  tie := .up
  nan := "NaN"
  infinity := "inf"
  negativeInfinity := "-inf"

end Style

end TaskDiagram.Decimal
