import TaskDiagram.Decimal.Word
import TaskDiagram.Json.Basic
import TaskDiagram.Toml.Text
import TaskDiagram.Yaml.Plain

/-!
# Numbers and dates within a TOML text

Digits may be separated by single underscores. Whole numbers have 64 bits with a sign. A date or
time is kept as its text under a key of its own.
-/

namespace TaskDiagram.Toml

/-- Digits of a base with underscores between them. -/
def readDigits (isDigit : Char → Bool) : (afterDigit : Bool) → List Char → Ahead (List Char)
  | _, [] => ([], [])
  | afterDigit, c :: rest =>
      if isDigit c then
        let (more, rest) := readDigits isDigit true rest
        (c :: more, rest)
      else if c == '_' && afterDigit then
        match rest with
        | d :: _ =>
            if isDigit d then readDigits isDigit false rest else ([], c :: rest)
        | [] => ([], c :: rest)
      else ([], c :: rest)

def isDigitOf (base : Nat) (c : Char) : Bool := (Text.hexValue? c).any (· < base)

/-- A whole number in a base. -/
def ofDigits (base : Nat) (digits : List Char) : Nat :=
  digits.foldl (fun n c => n * base + (Text.hexValue? c).getD 0) 0

/-- A whole number of 64 bits with a sign. -/
def wholeValue? (n : Int) : Option Json :=
  if Decimal.fitsInt64 n then some (.int n) else none

/-- A number with the mark of its base. -/
def readMarked? (base : Nat) (cs : List Char) : Option (Ahead Json) := do
  let (digits, rest) := readDigits (isDigitOf base) false cs
  if digits.isEmpty then failure
  let value ← wholeValue? (ofDigits base digits)
  pure (value, rest)

/-- A decimal number without sign: its digits, then places and exponent if it is a fraction. -/
structure Decimal where
  whole : List Char
  places : List Char
  exponent : Int
  fraction : Bool

def readDecimal? (cs : List Char) : Option (Ahead Decimal) := do
  let (whole, rest) := readDigits Char.isDigit false cs
  if whole.isEmpty || (whole.head? == some '0' && 1 < whole.length) then failure
  let (places, rest, pointed) ← match rest with
    | '.' :: after => do
        let (places, rest) := readDigits Char.isDigit false after
        if places.isEmpty then failure
        pure (places, rest, true)
    | rest => some ([], rest, false)
  match rest with
  | 'e' :: after | 'E' :: after =>
      let (down, after) := match after with
        | '-' :: after => (true, after)
        | '+' :: after => (false, after)
        | after => (false, after)
      let (digits, rest) := readDigits Char.isDigit false after
      if digits.isEmpty then failure
      let e : Int := ofDigits 10 digits
      pure (⟨whole, places, if down then -e else e, true⟩, rest)
  | rest => pure (⟨whole, places, 0, pointed⟩, rest)

/-- A decimal number as a value. Too large a fraction is refused, unless it is negative. -/
def Decimal.value? (negative : Bool) (d : Decimal) : Option Json :=
  if d.fraction then
    let x := Yaml.nearestFloat (ofDigits 10 (d.whole ++ d.places)) (d.exponent - d.places.length)
    if negative then some (.float (-x))
    else if x.isInf then none
    else some (.float x)
  else
    let n : Int := ofDigits 10 d.whole
    wholeValue? (if negative then -n else n)

/-- A number behind its sign. -/
def readSigned? (negative : Bool) (cs : List Char) : Option (Ahead Json) :=
  match cs with
  | 'i' :: 'n' :: 'f' :: rest =>
      some (.float (if negative then -1.0 / 0.0 else 1.0 / 0.0), rest)
  | 'n' :: 'a' :: 'n' :: rest => some (.float (0.0 / 0.0), rest)
  | cs => do
      let (d, rest) ← readDecimal? cs
      let value ← d.value? negative
      pure (value, rest)

/-- A number of a fixed count of digits. -/
def readFixed? (count : Nat) (cs : List Char) : Option (Ahead Nat) :=
  let digits := cs.take count
  if digits.length == count && digits.all Char.isDigit then
    some (ofDigits 10 digits, cs.drop count)
  else none

def isLeap (year : Nat) : Bool := (year % 4 == 0 && year % 100 != 0) || year % 400 == 0

def daysIn (year month : Nat) : Nat :=
  if month == 2 then (if isLeap year then 29 else 28)
  else if [4, 6, 9, 11].contains month then 30
  else 31

def readDate? (cs : List Char) : Option (List Char) := do
  let (year, rest) ← readFixed? 4 cs
  let rest ← match rest with
    | '-' :: rest => some rest
    | _ => none
  let (month, rest) ← readFixed? 2 rest
  let rest ← match rest with
    | '-' :: rest => some rest
    | _ => none
  let (day, rest) ← readFixed? 2 rest
  if month < 1 || 12 < month || day < 1 || daysIn year month < day then failure
  pure rest

def readTime? (cs : List Char) : Option (List Char) := do
  let (hour, rest) ← readFixed? 2 cs
  let rest ← match rest with
    | ':' :: rest => some rest
    | _ => none
  let (minute, rest) ← readFixed? 2 rest
  let rest ← match rest with
    | ':' :: rest => some rest
    | _ => none
  let (second, rest) ← readFixed? 2 rest
  if 23 < hour || 59 < minute || 60 < second then failure
  match rest with
  | '.' :: after =>
      let places := after.takeWhile Char.isDigit
      if places.isEmpty then failure
      pure (after.dropWhile Char.isDigit)
  | rest => pure rest

def readOffset? (cs : List Char) : Option (List Char) := do
  match cs with
  | 'Z' :: rest | 'z' :: rest => pure rest
  | '+' :: rest | '-' :: rest =>
      let (hour, rest) ← readFixed? 2 rest
      let rest ← match rest with
        | ':' :: rest => some rest
        | _ => none
      let (minute, rest) ← readFixed? 2 rest
      if 23 < hour || 59 < minute then failure
      pure rest
  | _ => failure

/-- The text behind a date, a time, or both. -/
def readMoment? (cs : List Char) : Option (List Char) :=
  match readDate? cs with
  | some rest =>
      let joined := match rest with
        | c :: after => if c == 'T' || c == 't' || c == ' ' then readTime? after else none
        | [] => none
      match joined with
      | some rest => some ((readOffset? rest).getD rest)
      | none => some rest
  | none => readTime? cs

/-- Key under which the text of a date stands. -/
def dateKey : String := "date"

/-- A number or a date. -/
def readNumber? (cs : List Char) : Option (Ahead Json) :=
  match readMoment? cs with
  | some rest =>
      let text := String.ofList (cs.take (cs.length - rest.length))
      some (.obj [(dateKey, .str text)], rest)
  | none =>
      match cs with
      | '+' :: rest => readSigned? false rest
      | '-' :: rest => readSigned? true rest
      | '0' :: 'x' :: rest => readMarked? 16 rest
      | '0' :: 'o' :: rest => readMarked? 8 rest
      | '0' :: 'b' :: rest => readMarked? 2 rest
      | cs => readSigned? false cs

end TaskDiagram.Toml
