import TaskDiagram.Decimal.Word
import TaskDiagram.Json.Basic
import TaskDiagram.Text.Utf8
import TaskDiagram.Yaml.Scalar

/-!
# What plain text stands for

Plain text that looks like nothing, a truth value or a number stands for it; any other plain text
stands for itself. Numbers may be written in four bases. A number that begins with a zero and goes
on with digits is text.
-/

namespace TaskDiagram.Yaml

def isNullWord (s : String) : Bool := ["null", "Null", "NULL", "~"].contains s

def boolWord? (s : String) : Option Bool :=
  if ["true", "True", "TRUE"].contains s then some true
  else if ["false", "False", "FALSE"].contains s then some false
  else none

def isSign (ch : Char) : Bool := ch == '+' || ch == '-'

/-- The value of digits of a base; at least one is needed. -/
def digitsIn? (base : Nat) (cs : List Char) : Option Nat :=
  if cs.isEmpty then none
  else cs.foldlM (fun n ch =>
    match Text.hexValue? ch with
    | some d => if d < base then some (n * base + d) else none
    | none => none) 0

/-- A number with the mark of its base, or without one in base ten. -/
def unsigned? (cs : List Char) : Option Nat :=
  let marked := match cs with
    | '0' :: 'x' :: digits => digitsIn? 16 digits
    | '0' :: 'o' :: digits => digitsIn? 8 digits
    | '0' :: 'b' :: digits => digitsIn? 2 digits
    | _ => none
  marked.or (digitsIn? 10 cs)

/-- Text of digits that begins with a superfluous zero. -/
def hasLeadingZero (cs : List Char) : Bool :=
  match cs with
  | '0' :: rest => !rest.isEmpty && rest.all Char.isDigit
  | _ => false

/-- The whole number a text looks like. -/
def wholeNumber? (s : String) : Option Int :=
  match s.toList with
  | '-' :: digits =>
      if hasLeadingZero digits then none else (unsigned? digits).map fun n => -(n : Int)
  | '+' :: digits => if hasLeadingZero digits then none else (unsigned? digits).map Int.ofNat
  | digits => if hasLeadingZero digits then none else (unsigned? digits).map Int.ofNat

/-- An exponent of ten behind its mark. -/
def exponent? (cs : List Char) : Option Int :=
  let (down, digits) := match cs with
    | '-' :: digits => (true, digits)
    | '+' :: digits => (false, digits)
    | _ => (false, cs)
  (digitsIn? 10 digits).map fun (n : Nat) => if down then -(n : Int) else n

/-- `digits · 10 ^ exponent`, rounded to the nearest double. -/
def nearestFloat (digits : Nat) (exponent : Int) : Float :=
  let size := (Nat.toDigits 10 digits).length
  if digits == 0 then 0.0
  else if 400 < exponent + size then 1.0 / 0.0
  else if exponent + size < -400 then 0.0
  else .ofScientific digits (exponent < 0) exponent.natAbs

/-- A decimal fraction without sign, with point and exponent where it has them. -/
def fraction? (cs : List Char) : Option Float := do
  let whole := cs.takeWhile Char.isDigit
  let rest := cs.dropWhile Char.isDigit
  let (places, rest) := match rest with
    | '.' :: rest => (rest.takeWhile Char.isDigit, rest.dropWhile Char.isDigit)
    | rest => ([], rest)
  let digits ← digitsIn? 10 (whole ++ places)
  let exponent ← match rest with
    | [] => some 0
    | 'e' :: rest | 'E' :: rest => exponent? rest
    | _ => none
  pure (nearestFloat digits (exponent - places.length))

/-- The double a text looks like, infinite ones and the one that is no number included. -/
def float? (s : String) : Option Float :=
  let cs := s.toList
  let unsigned := match cs with
    | '+' :: rest => rest
    | _ => cs
  if [".inf", ".Inf", ".INF"].contains (String.ofList unsigned) then some (1.0 / 0.0)
  else if ["-.inf", "-.Inf", "-.INF"].contains s then some (-1.0 / 0.0)
  else if [".nan", ".NaN", ".NAN"].contains s then some (0.0 / 0.0)
  else do
    let x ← match cs with
      | '+' :: rest => fraction? rest
      | '-' :: rest => (fraction? rest).map (-·)
      | rest => fraction? rest
    if x.isFinite then some x else none

/-- A double as a document value, which has no room for infinite ones. -/
def floatValue (x : Float) : Json := if x.isFinite then .float x else .null

/-- Whole numbers a document value has room for. -/
def intValue? (n : Int) : Option Json :=
  if Decimal.minInt64 ≤ n && n ≤ Decimal.maxWord64 then some (.int n) else none

/-- Whole numbers that are numbers at all, though a document value may have no room for them. -/
def isNumberSize (n : Int) : Bool := -Nat.pow 2 127 ≤ n && n < Nat.pow 2 128

/-- The number a text looks like; `none` where a document value has no room for it. -/
def numberValue? (s : String) : Option (Option Json) :=
  match (wholeNumber? s).filter isNumberSize with
  | some n => some (intValue? n)
  | none => none

/-- The value plain text stands for. -/
def plainValue? (s : String) : Option Json :=
  if s.isEmpty || isNullWord s then some .null
  else
    match boolWord? s with
    | some b => some (.bool b)
    | none =>
        match numberValue? s with
        | some value => value
        | none =>
            let digits := match s.toList with
              | ch :: rest => if isSign ch then rest else ch :: rest
              | [] => []
            if hasLeadingZero digits then some (.str s)
            else
              match float? s with
              | some x => some (floatValue x)
              | none => some (.str s)

/-- The value of text without a tag. -/
def untaggedValue? (s : String) (plain : Bool) : Option Json :=
  if plain then plainValue? s else some (.str s)

/-- Whether a tag is the one of this name in the core schema. -/
def isCoreTag (tag : List Nat) (name : String) : Bool :=
  tag == Text.toBytes ("tag:yaml.org,2002:" ++ name)

/-- The value of text under a tag of the core schema. A tag that begins with an exclamation mark
changes nothing; any other one leaves it text. -/
def taggedValue? (tag : List Nat) (s : String) (plain : Bool) : Option Json :=
  if isCoreTag tag "bool" then (boolWord? s).map .bool
  else if isCoreTag tag "int" then (numberValue? s).bind id
  else if isCoreTag tag "float" then (float? s).map floatValue
  else if isCoreTag tag "null" then if isNullWord s then some .null else none
  else if tag.head? == some '!'.toNat then untaggedValue? s plain
  else some (.str s)

end TaskDiagram.Yaml
