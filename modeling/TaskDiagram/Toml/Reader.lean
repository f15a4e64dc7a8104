import TaskDiagram.Toml.Number
import TaskDiagram.Toml.Table

/-!
# Reading TOML text

A text is a list of headers and of keys with values; a key belongs to the table of the last
header. Arrays and tables in braces may be nested less than eighty deep.
-/

namespace TaskDiagram.Toml

mutual

/-- A value; `depth` more arrays and tables may stand around others inside it. -/
def readValue? : (fuel depth : Nat) → List Char → Option (Ahead Json)
  | 0, _, _ => none
  | fuel + 1, depth, cs =>
      match cs with
      | '"' :: _ | '\'' :: _ => (readString? cs).map fun (s, rest) => (.str s, rest)
      | 't' :: 'r' :: 'u' :: 'e' :: rest => some (.bool true, rest)
      | 'f' :: 'a' :: 'l' :: 's' :: 'e' :: rest => some (.bool false, rest)
      | '[' :: rest =>
          match depth with
          | 0 => none
          | depth + 1 => readItems? fuel depth [] rest
      | '\x7b' :: rest =>
          match depth with
          | 0 => none
          | depth + 1 => do
              match skipBlanks rest with
              | '\x7d' :: rest => pure (.obj [], rest)
              | rest => readBraces? fuel depth [] rest
      | cs => readNumber? cs

/-- The items of an array up to its end; `done` holds those read, latest first. -/
def readItems? : (fuel depth : Nat) → (done : List Json) → List Char → Option (Ahead Json)
  | 0, _, _, _ => none
  | fuel + 1, depth, done, cs =>
      match skipGap (cs.length + 1) cs with
      | ']' :: rest => some (.arr done.reverse, rest)
      | cs => do
          let (item, rest) ← readValue? fuel depth cs
          match skipGap (rest.length + 1) rest with
          | ',' :: rest => readItems? fuel depth (item :: done) rest
          | ']' :: rest => pure (.arr (item :: done).reverse, rest)
          | _ => failure

/-- The entries of a table in braces up to its end, all on one line. -/
def readBraces? : (fuel depth : Nat) → (done : Items) → List Char → Option (Ahead Json)
  | 0, _, _, _ => none
  | fuel + 1, depth, done, cs => do
      let (path, rest) ← readKey? (cs.length + 1) cs
      if 80 ≤ path.length then failure
      match skipBlanks rest with
      | '=' :: rest =>
          let (value, rest) ← readValue? fuel depth (skipBlanks rest)
          let key ← path.getLast?
          let done ← Items.addValue? key value path.dropLast .header done
          match skipBlanks rest with
          | ',' :: rest => readBraces? fuel depth done rest
          | '\x7d' :: rest => pure ((Item.table .header done).toJson, rest)
          | _ => failure
      | _ => failure

end

/-- A text read so far: its tables, and the path of the table that keys belong to. -/
structure Progress where
  root : Items
  path : List String

/-- A header behind its bracket or brackets. -/
def readHeader? (repeated : Bool) (p : Progress) (cs : List Char) :
    Option (Ahead Progress) := do
  let (path, rest) ← readKey? (cs.length + 1) cs
  if 80 ≤ path.length then failure
  let key ← path.getLast?
  let add := if repeated then Items.addRepeated? key else Items.addHeader? key
  let root ← Items.within? add path.dropLast p.root
  let rest ← match repeated, rest with
    | false, ']' :: rest => some rest
    | true, ']' :: ']' :: rest => some rest
    | _, _ => none
  pure (⟨root, path⟩, rest)

/-- A key with its value. -/
def readEntry? (p : Progress) (cs : List Char) : Option (Ahead Progress) := do
  let (path, rest) ← readKey? (cs.length + 1) cs
  if 80 ≤ path.length then failure
  match rest with
  | '=' :: rest =>
      let rest := skipBlanks rest
      let (value, rest) ← readValue? (2 * rest.length + 2) 79 rest
      let key ← path.getLast?
      let root ← Items.within? (Items.addValue? key value path.dropLast .header) p.path p.root
      pure ({ p with root }, rest)
  | _ => failure

/-- The lines of a text. -/
def readLinesFrom? : (fuel : Nat) → Progress → List Char → Option Progress
  | 0, p, _ => some p
  | fuel + 1, p, cs => do
      match skipBlanks cs with
      | [] => pure p
      | cs =>
          let (p, rest) ← match cs with
            | '#' :: _ | '\n' :: _ | '\r' :: _ => some (p, cs)
            | '[' :: '[' :: rest => readHeader? true p rest
            | '[' :: rest => readHeader? false p rest
            | cs => readEntry? p cs
          let rest ← skipLineRest? rest
          readLinesFrom? fuel p rest

/-- The value of a text; nothing where it is malformed. -/
def read (text : String) : Option Json := do
  let cs := match text.toList with
    | '\ufeff' :: rest => rest
    | cs => cs
  let p ← readLinesFrom? (cs.length + 1) ⟨[], []⟩ cs
  pure (.obj (itemsToJson p.root))

end TaskDiagram.Toml
