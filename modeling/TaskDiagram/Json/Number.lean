import TaskDiagram.Decimal.Word
import TaskDiagram.Json.Basic

/-!
# Numbers in document text

A number without point and exponent is a whole number as long as it fits 64 bits, signed or
unsigned. Every other number becomes a double: the digits that fit 64 bits, scaled by one power
of ten at a time. A result beyond the range of doubles is refused.
-/

namespace TaskDiagram.Json

/-- Why a text is no document. -/
inductive Failure where
  /-- The text ends too early. -/
  | incomplete
  /-- No continuation makes the text a document. -/
  | malformed
  deriving DecidableEq, Repr

/-- A value together with the text behind it. -/
abbrev Ahead (α : Type) := α × List Char

/-- Value of a decimal digit. -/
def digitValue (c : Char) : Nat := c.toNat - 48

/-- Appends the digits ahead to `n` while the result fits 64 bits; also counts them. -/
def accumulate (n count : Nat) : List Char → Nat × Nat × List Char
  | [] => (n, count, [])
  | c :: rest =>
      if c.isDigit && n * 10 + digitValue c ≤ Decimal.maxWord64 then
        accumulate (n * 10 + digitValue c) (count + 1) rest
      else (n, count, c :: rest)

/-- `10 ^ k` as a double, for `k ≤ 308`. -/
def powerOfTen (k : Nat) : Float := Float.ofScientific 1 false k

/-- Divides by `10 ^ k`, in steps of at most `10 ^ 308`. -/
def divideByPower : (fuel : Nat) → Float → (k : Nat) → Float
  | 0, x, _ => x
  | fuel + 1, x, k =>
      if k ≤ 308 then x / powerOfTen k
      else if x == 0.0 then x
      else divideByPower fuel (x / powerOfTen 308) (k - 308)

/-- `significand · 10 ^ exponent` as a double; `none` beyond the largest one. -/
def scale? (significand : Nat) (exponent : Int) : Option Float :=
  let x := Float.ofNat significand
  if 0 ≤ exponent then
    if exponent ≤ 308 then
      let y := x * powerOfTen exponent.toNat
      if y.isInf then none else some y
    else if significand == 0 then some x
    else none
  else some (divideByPower 5 x (min exponent.natAbs 1400))

/-- A double with its sign. -/
def signed (negative : Bool) (x : Float) : Json :=
  .float (if negative then -x else x)

/-- The double made of the parts read so far. -/
def finishFloat (negative : Bool) (significand : Nat) (exponent : Int) (rest : List Char) :
    Except Failure (Ahead Json) :=
  match scale? significand exponent with
  | some x => .ok (signed negative x, rest)
  | none => .error .malformed

/-- An exponent beyond this many units decides a number by itself. -/
def maxExponent : Nat := 2147483647

/-- The exponent after its `e`; `exponent` is what the places so far contribute. -/
def readExponent (negative : Bool) (significand : Nat) (exponent : Int) (cs : List Char) :
    Except Failure (Ahead Json) :=
  let (down, digits) := match cs with
    | '+' :: rest => (false, rest)
    | '-' :: rest => (true, rest)
    | _ => (false, cs)
  match digits with
  | [] => .error .incomplete
  | c :: _ =>
      if c.isDigit then
        let run := digits.takeWhile Char.isDigit
        let rest := digits.dropWhile Char.isDigit
        let e := run.foldl (fun n d => min (maxExponent + 1) (n * 10 + digitValue d)) 0
        if maxExponent < e then
          if significand != 0 && !down then .error .malformed
          else .ok (signed negative 0.0, rest)
        else finishFloat negative significand (if down then exponent - e else exponent + e) rest
      else .error .malformed

/-- Behind the digits of a number: an exponent or nothing. -/
def readScaled (negative : Bool) (significand : Nat) (exponent : Int) (cs : List Char) :
    Except Failure (Ahead Json) :=
  match cs with
  | 'e' :: rest | 'E' :: rest => readExponent negative significand exponent rest
  | _ => finishFloat negative significand exponent cs

/-- Places behind the point. Digits that no longer fit 64 bits are passed over. -/
def readPlaces (negative : Bool) (significand : Nat) (exponent : Int) (cs : List Char) :
    Except Failure (Ahead Json) :=
  let (n, count, rest) := accumulate significand 0 cs
  match rest with
  | [] => if count == 0 then .error .incomplete else finishFloat negative n (exponent - count) []
  | c :: _ =>
      if c.isDigit then
        readScaled negative n (exponent - count) (rest.dropWhile Char.isDigit)
      else if count == 0 then .error .malformed
      else readScaled negative n (exponent - count) rest

/-- A whole number that fits, or the double of one that does not. -/
def wholeNumber (negative : Bool) (n : Nat) : Json :=
  if !negative then .int n
  else if n == 0 || Decimal.maxInt64 + 1 < n then signed true (Float.ofNat n)
  else .int (-(n : Int))

/-- A number whose sign has been read. -/
def readNumber (negative : Bool) (cs : List Char) : Except Failure (Ahead Json) :=
  match cs with
  | [] => .error .incomplete
  | '0' :: rest =>
      match rest with
      | '.' :: places => readPlaces negative 0 0 places
      | c :: _ =>
          if c.isDigit then .error .malformed
          else if c == 'e' || c == 'E' then readScaled negative 0 0 rest
          else .ok (wholeNumber negative 0, rest)
      | [] => .ok (wholeNumber negative 0, [])
  | first :: _ =>
      if !first.isDigit then .error .malformed
      else
        let (n, _, rest) := accumulate 0 0 cs
        let skipped := rest.takeWhile Char.isDigit
        match rest.dropWhile Char.isDigit with
        | '.' :: places => readPlaces negative n skipped.length places
        | 'e' :: behind => readExponent negative n skipped.length behind
        | 'E' :: behind => readExponent negative n skipped.length behind
        | behind =>
            if skipped.isEmpty then .ok (wholeNumber negative n, behind)
            else finishFloat negative n skipped.length behind

end TaskDiagram.Json
