import TaskDiagram.Json.Reader

/-!
# Passing over a value

A value nobody asks for is passed over without being read: its text must be well formed, but
escapes need not stand for characters, numbers may have any size, and containers may stand as deep
as they like. The containers around the place reached are held in a list, innermost first.
-/

namespace TaskDiagram.Json

/-- Behind an escape whose backslash has been passed. -/
def skipEscape? : List Char → Option (List Char)
  | 'u' :: rest =>
      match readHex rest with
      | .ok (_, rest) => some rest
      | .error _ => none
  | c :: rest => if "\"\\/bfnrt".toList.contains c then some rest else none
  | [] => none

/-- Behind a text whose opening quote has been passed. -/
def skipText? : (fuel : Nat) → List Char → Option (List Char)
  | 0, _ | _, [] => none
  | fuel + 1, c :: rest =>
      if c == '"' then some rest
      else if c == '\\' then (skipEscape? rest).bind (skipText? fuel)
      else if c.toNat < 0x20 then none
      else skipText? fuel rest

/-- Behind digits, of which there has to be one. -/
def skipDigits? (cs : List Char) : Option (List Char) :=
  if (cs.head?.map Char.isDigit).getD false then some (cs.dropWhile Char.isDigit) else none

/-- Behind an exponent, if one is ahead. -/
def skipExponent? (cs : List Char) : Option (List Char) :=
  match cs with
  | 'e' :: rest | 'E' :: rest =>
      match rest with
      | '+' :: rest | '-' :: rest => skipDigits? rest
      | _ => skipDigits? rest
  | _ => some cs

/-- Behind a number whose sign has been passed. -/
def skipNumber? (cs : List Char) : Option (List Char) := do
  let rest ← match cs with
    | '0' :: rest => if (rest.head?.map Char.isDigit).getD false then none else some rest
    | cs => skipDigits? cs
  match rest with
  | '.' :: rest => skipExponent? (← skipDigits? rest)
  | rest => skipExponent? rest

/-- Behind a word whose first letter has been passed. -/
def skipWord? (word : String) (cs : List Char) : Option (List Char) :=
  (expectWord word.toList cs).toOption

/-- Behind a value that is no container. -/
def skipScalar? (cs : List Char) : Option (List Char) :=
  match cs with
  | 'n' :: rest => skipWord? "ull" rest
  | 't' :: rest => skipWord? "rue" rest
  | 'f' :: rest => skipWord? "alse" rest
  | '-' :: rest => skipNumber? rest
  | '"' :: rest => skipText? (rest.length + 1) rest
  | cs => skipNumber? cs

/-- Behind a key and its colon. -/
def skipKey? (cs : List Char) : Option (List Char) := do
  match skipSpace cs with
  | '"' :: rest =>
      match skipSpace (← skipText? (rest.length + 1) rest) with
      | ':' :: rest => pure rest
      | _ => failure
  | _ => failure

/-- A container whose beginning has been passed. -/
inductive Enclosure where
  | array
  | object
  deriving DecidableEq

mutual

/-- Behind everything that encloses the value ahead. -/
def skipFrom? : (fuel : Nat) → (enclosing : List Enclosure) → List Char → Option (List Char)
  | 0, _, _ => none
  | fuel + 1, enclosing, cs =>
      match skipSpace cs with
      | '[' :: rest =>
          match skipSpace rest with
          | ']' :: rest => skipBehind? fuel enclosing rest
          | rest => skipFrom? fuel (.array :: enclosing) rest
      | '\x7b' :: rest =>
          match skipSpace rest with
          | '\x7d' :: rest => skipBehind? fuel enclosing rest
          | rest => (skipKey? rest).bind (skipFrom? fuel (.object :: enclosing))
      | rest => (skipScalar? rest).bind (skipBehind? fuel enclosing)

/-- Behind everything that encloses the value just passed. -/
def skipBehind? : (fuel : Nat) → (enclosing : List Enclosure) → List Char → Option (List Char)
  | _, [], cs => some cs
  | 0, _, _ => none
  | fuel + 1, .array :: outer, cs =>
      match skipSpace cs with
      | ',' :: rest => skipFrom? fuel (.array :: outer) rest
      | ']' :: rest => skipBehind? fuel outer rest
      | _ => none
  | fuel + 1, .object :: outer, cs =>
      match skipSpace cs with
      | ',' :: rest => (skipKey? rest).bind (skipFrom? fuel (.object :: outer))
      | '\x7d' :: rest => skipBehind? fuel outer rest
      | _ => none

end

/-- Behind the value ahead. -/
def skipValue? (cs : List Char) : Option (List Char) := skipFrom? (2 * cs.length + 2) [] cs

end TaskDiagram.Json
