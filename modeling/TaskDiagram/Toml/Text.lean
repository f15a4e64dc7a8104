import TaskDiagram.Yaml.Scalar

/-!
# Texts within a TOML text

Keys and the four kinds of strings. Each reader returns what it read and the text behind it.
-/

namespace TaskDiagram.Toml

/-- What was read, and the text behind it. -/
abbrev Ahead (α : Type) := α × List Char

def isBlank (c : Char) : Bool := c == ' ' || c == '\t'

def skipBlanks (cs : List Char) : List Char := cs.dropWhile isBlank

/-- Characters that may stand in a comment or in a string of one line. -/
def isVisible (c : Char) : Bool :=
  c == '\t' || (0x20 ≤ c.toNat && c.toNat ≠ 0x7f)

/-- The text behind a line break. -/
def afterBreak? : List Char → Option (List Char)
  | '\n' :: rest => some rest
  | '\r' :: '\n' :: rest => some rest
  | _ => none

/-- The text behind a comment, if one is ahead. -/
def skipComment : List Char → List Char
  | '#' :: rest => rest.dropWhile isVisible
  | cs => cs

/-- Past the rest of a line on which nothing but a comment may follow. -/
def skipLineRest? (cs : List Char) : Option (List Char) :=
  match skipComment (skipBlanks cs) with
  | [] => some []
  | cs => afterBreak? cs

/-- Past blanks, comments and empty lines. -/
def skipGap : (fuel : Nat) → List Char → List Char
  | 0, cs => cs
  | fuel + 1, cs =>
      match afterBreak? (skipComment (skipBlanks cs)) with
      | some rest => skipGap fuel rest
      | none => skipComment (skipBlanks cs)

/-- A character written as hexadecimal digits. -/
def readCode? (digits : Nat) (cs : List Char) : Option (Ahead Char) := do
  let written := cs.take digits
  if written.length < digits then failure
  let value ← written.foldlM (fun n c => (Text.hexValue? c).map (n * 16 + ·)) 0
  let c ← Yaml.scalar? value
  pure (c, cs.drop digits)

/-- An escape behind its backslash. -/
def readEscape? : List Char → Option (Ahead Char)
  | 'b' :: rest => some ('\x08', rest)
  | 't' :: rest => some ('\t', rest)
  | 'n' :: rest => some ('\n', rest)
  | 'f' :: rest => some ('\x0c', rest)
  | 'r' :: rest => some ('\r', rest)
  | '"' :: rest => some ('"', rest)
  | '\\' :: rest => some ('\\', rest)
  | 'u' :: rest => readCode? 4 rest
  | 'U' :: rest => readCode? 8 rest
  | _ => none

/-- A string of one line behind its opening quote. -/
def readLine? (quote : Char) : (fuel : Nat) → (done : List Char) → List Char →
    Option (Ahead String)
  | 0, _, _ => none
  | _ + 1, _, [] => none
  | fuel + 1, done, c :: rest =>
      if c == quote then some (String.ofList done.reverse, rest)
      else if c == '\\' && quote == '"' then do
        let (escaped, rest) ← readEscape? rest
        readLine? quote fuel (escaped :: done) rest
      else if isVisible c then readLine? quote fuel (c :: done) rest
      else none

/-- Past the blanks and line breaks that a backslash at the end of a line hides; at least one line
break must be there. -/
def skipHidden? (cs : List Char) : Option (List Char) := do
  let rest ← afterBreak? (skipBlanks cs)
  pure (skip (rest.length + 1) rest)
where
  /-- Past blanks and line breaks. -/
  skip : Nat → List Char → List Char
    | 0, cs => cs
    | fuel + 1, cs =>
        match afterBreak? (skipBlanks cs) with
        | some rest => skip fuel rest
        | none => skipBlanks cs

/-- Quotes at the end of a string of several lines: three close it, up to two more belong to it. -/
def closing? (quote : Char) (cs : List Char) : Option (Ahead (List Char)) :=
  let quotes := cs.takeWhile (· == quote)
  if quotes.length < 3 then none
  else
    let extra := min 2 (quotes.length - 3)
    some (List.replicate extra quote, cs.drop (extra + 3))

/-- A string of several lines behind its opening quotes. -/
def readLines? (quote : Char) : (fuel : Nat) → (done : List Char) → List Char →
    Option (Ahead String)
  | 0, _, _ => none
  | fuel + 1, done, cs =>
      match closing? quote cs with
      | some (extra, rest) => some (String.ofList (done.reverse ++ extra), rest)
      | none =>
          match afterBreak? cs with
          | some rest => readLines? quote fuel ('\n' :: done) rest
          | none =>
              match cs with
              | [] => none
              | c :: rest =>
                  if c == '\\' && quote == '"' then
                    match skipHidden? rest with
                    | some rest => readLines? quote fuel done rest
                    | none => do
                        let (escaped, rest) ← readEscape? rest
                        readLines? quote fuel (escaped :: done) rest
                  else if isVisible c then readLines? quote fuel (c :: done) rest
                  else none

/-- A string with its quotes. -/
def readString? (cs : List Char) : Option (Ahead String) :=
  match cs with
  | q :: q' :: q'' :: rest =>
      if (q == '"' || q == '\'') && q == q' && q == q'' then
        let rest := (afterBreak? rest).getD rest
        readLines? q (rest.length + 1) [] rest
      else if q == '"' || q == '\'' then
        readLine? q (cs.length + 1) [] (q' :: q'' :: rest)
      else none
  | q :: rest => if q == '"' || q == '\'' then readLine? q (cs.length + 1) [] rest else none
  | [] => none

def isBareKey (c : Char) : Bool := c.isAlphanum || c == '_' || c == '-'

/-- One part of a key. -/
def readKeyPart? (cs : List Char) : Option (Ahead String) :=
  match cs with
  | '"' :: rest => readLine? '"' (rest.length + 1) [] rest
  | '\'' :: rest => readLine? '\'' (rest.length + 1) [] rest
  | cs =>
      let part := cs.takeWhile isBareKey
      if part.isEmpty then none else some (String.ofList part, cs.dropWhile isBareKey)

/-- The parts of a key with points between them. -/
def readKey? : (fuel : Nat) → List Char → Option (Ahead (List String))
  | 0, _ => none
  | fuel + 1, cs => do
      let (part, rest) ← readKeyPart? (skipBlanks cs)
      match skipBlanks rest with
      | '.' :: rest =>
          let (parts, rest) ← readKey? fuel rest
          pure (part :: parts, rest)
      | rest => pure ([part], rest)

end TaskDiagram.Toml
