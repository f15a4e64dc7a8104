import TaskDiagram.Json.Number
import TaskDiagram.Text.Hex

/-!
# Reading document text

A recursive descent over the characters of a text. Containers may stand 127 deep. The reader tells
a text that ends too early from one that no continuation could mend; where both apply, what stands
first decides.
-/

namespace TaskDiagram.Json

/-- The four characters a document skips between its tokens. -/
def isSpace (c : Char) : Bool :=
  c == ' ' || c == '\n' || c == '\t' || c == '\r'

def skipSpace (cs : List Char) : List Char := cs.dropWhile isSpace

/-- The rest of a word whose first letter has been seen. -/
def expectWord : List Char → List Char → Except Failure (List Char)
  | [], cs => .ok cs
  | _ :: _, [] => .error .incomplete
  | w :: word, c :: cs => if w == c then expectWord word cs else .error .malformed

/-- Whether the text is shorter than `n` bytes. -/
def shorterThan : Nat → List Char → Bool
  | 0, _ => false
  | _ + 1, [] => true
  | n + 1, c :: cs => shorterThan (n + 1 - c.utf8Size) cs

/-- The four digits of an escape. -/
def readHex (cs : List Char) : Except Failure (Ahead Nat) :=
  if shorterThan 4 cs then .error .incomplete
  else
    match cs with
    | a :: b :: c :: d :: rest =>
        match Text.hexValue? a, Text.hexValue? b, Text.hexValue? c, Text.hexValue? d with
        | some a, some b, some c, some d => .ok (((a * 16 + b) * 16 + c) * 16 + d, rest)
        | _, _, _, _ => .error .malformed
    | _ => .error .malformed

/-- The second half of a surrogate pair whose first half is `high`. -/
def readLowSurrogate (high : Nat) (cs : List Char) : Except Failure (Ahead Char) :=
  match cs with
  | [] => .error .incomplete
  | '\\' :: [] => .error .incomplete
  | '\\' :: 'u' :: rest => do
      let (low, rest) ← readHex rest
      if 0xdc00 ≤ low && low ≤ 0xdfff then
        pure (Char.ofNat (0x10000 + (high - 0xd800) * 0x400 + (low - 0xdc00)), rest)
      else throw .malformed
  | _ => .error .malformed

/-- An escape whose backslash has been read. -/
def readEscape (cs : List Char) : Except Failure (Ahead Char) :=
  match cs with
  | [] => .error .incomplete
  | 'u' :: rest => do
      let (unit, rest) ← readHex rest
      if 0xdc00 ≤ unit && unit ≤ 0xdfff then throw .malformed
      else if 0xd800 ≤ unit && unit ≤ 0xdbff then readLowSurrogate unit rest
      else pure (Char.ofNat unit, rest)
  | c :: rest =>
      match c with
      | '"' => .ok ('"', rest)
      | '\\' => .ok ('\\', rest)
      | '/' => .ok ('/', rest)
      | 'b' => .ok ('\x08', rest)
      | 'f' => .ok ('\x0c', rest)
      | 'n' => .ok ('\n', rest)
      | 'r' => .ok ('\r', rest)
      | 't' => .ok ('\t', rest)
      | _ => .error .malformed

/-- A text whose opening quote has been read; `done` holds its characters so far, latest first. -/
def readText : (fuel : Nat) → (done : List Char) → List Char → Except Failure (Ahead String)
  | 0, _, _ => .error .malformed
  | _ + 1, _, [] => .error .incomplete
  | fuel + 1, done, c :: rest =>
      if c == '"' then .ok (String.ofList done.reverse, rest)
      else if c == '\\' then do
        let (escaped, rest) ← readEscape rest
        readText fuel (escaped :: done) rest
      else if c.toNat < 0x20 then .error .malformed
      else readText fuel (c :: done) rest

mutual

/-- A value, with `depth` more containers allowed inside it. -/
def readValue : (fuel depth : Nat) → List Char → Except Failure (Ahead Json)
  | 0, _, _ => .error .malformed
  | fuel + 1, depth, cs =>
      match skipSpace cs with
      | [] => .error .incomplete
      | 'n' :: rest => (expectWord ['u', 'l', 'l'] rest).map (.null, ·)
      | 't' :: rest => (expectWord ['r', 'u', 'e'] rest).map (.bool true, ·)
      | 'f' :: rest => (expectWord ['a', 'l', 's', 'e'] rest).map (.bool false, ·)
      | '-' :: rest => readNumber true rest
      | '"' :: rest => do
          let (s, rest) ← readText (rest.length + 1) [] rest
          pure (.str s, rest)
      | '[' :: rest =>
          match depth with
          | 0 => .error .malformed
          | depth + 1 => do
              let (items, rest) ← readItems fuel depth true [] rest
              pure (.arr items, rest)
      | '\x7b' :: rest =>
          match depth with
          | 0 => .error .malformed
          | depth + 1 => do
              let (entries, rest) ← readEntries fuel depth true [] rest
              pure (.obj entries, rest)
      | c :: rest => if c.isDigit then readNumber false (c :: rest) else .error .malformed

/-- The items of an array up to its closing bracket; `done` holds those read, latest first. -/
def readItems : (fuel depth : Nat) → (first : Bool) → (done : List Json) → List Char →
    Except Failure (Ahead (List Json))
  | 0, _, _, _, _ => .error .malformed
  | fuel + 1, depth, first, done, cs =>
      match skipSpace cs with
      | [] => .error .incomplete
      | ']' :: rest => .ok (done.reverse, rest)
      | c :: rest =>
          if first then do
            let (item, rest) ← readValue fuel depth (c :: rest)
            readItems fuel depth false (item :: done) rest
          else if c == ',' then
            match skipSpace rest with
            | ']' :: _ => .error .malformed
            | rest => do
                let (item, rest) ← readValue fuel depth rest
                readItems fuel depth false (item :: done) rest
          else .error .malformed

/-- The entries of an object up to its closing brace; `done` holds those read, latest first. -/
def readEntries : (fuel depth : Nat) → (first : Bool) → (done : Entries) → List Char →
    Except Failure (Ahead Entries)
  | 0, _, _, _, _ => .error .malformed
  | fuel + 1, depth, first, done, cs =>
      match skipSpace cs with
      | [] => .error .incomplete
      | '\x7d' :: rest => .ok (done.reverse, rest)
      | c :: rest => do
          let rest ←
            if first then pure (c :: rest)
            else if c == ',' then
              match skipSpace rest with
              | [] => throw .incomplete
              | rest => pure rest
            else throw .malformed
          match rest with
          | '"' :: rest =>
              let (key, rest) ← readText (rest.length + 1) [] rest
              match skipSpace rest with
              | [] => throw .incomplete
              | ':' :: rest =>
                  let (value, rest) ← readValue fuel depth rest
                  readEntries fuel depth false ((key, value) :: done) rest
              | _ => throw .malformed
          | _ => throw .malformed

end

/-- Containers may be nested this deep. -/
def maxDepth : Nat := 127

/-- The value at the front of a text and what follows it, containers at most `depth` deep. -/
def readFront (depth : Nat) (text : String) : Except Failure (Ahead Json) :=
  let cs := text.toList
  readValue (2 * cs.length + 2) depth cs

/-- The value that a whole text writes, entries in text order, containers at most `depth` deep. -/
def readWithin (depth : Nat) (text : String) : Except Failure Json := do
  let (value, rest) ← readFront depth text
  if (skipSpace rest).isEmpty then pure value else throw .malformed

/-- The value that a whole text writes. -/
def read (text : String) : Except Failure Json := readWithin maxDepth text

end TaskDiagram.Json
