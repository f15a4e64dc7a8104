import TaskDiagram.Decimal.Word
import TaskDiagram.Json.Skip

/-!
# Reading a text whose shape is known

A value can be checked against its shape while its text is read. Of two failures, one of the text
and one of the shape, the one that stands first is then the one that is found. Keys a record does
not know are passed over together with their values.
-/

namespace TaskDiagram.Json

/-- What kind of value is looked for. Every field of a record may be missing. -/
inductive Shape where
  | text
  | bool
  /-- A whole number of 64 bits with a sign. -/
  | int64
  /-- Any value that a test accepts, which is read to its end first. -/
  | whole (accepts : Json → Bool)
  /-- `null`, or what the shape says. -/
  | nullable (shape : Shape)
  /-- Fields with all the keys they are known under, in the order in which an array holds them. -/
  | record (fields : List (List String × Shape))

/-- Why a text does not hold a value of a shape. -/
inductive Misfit where
  /-- The text is no document up to there. -/
  | malformed
  | wrongShape
  deriving DecidableEq, Repr

namespace Shape

/-- A place in the text once a value has been read. -/
abbrev Step := Except Misfit (Ahead Json)

def unreadable {α : Type} (read : Except Failure α) : Except Misfit α :=
  read.mapError fun _ => .malformed

/-- The scalar ahead, if a test accepts it. A container is refused as soon as it begins. -/
def readScalar (accepts : Json → Bool) (cs : List Char) : Step :=
  match skipSpace cs with
  | '[' :: _ | '\x7b' :: _ => .error .wrongShape
  | cs => do
      let (value, rest) ← unreadable (readValue 1 0 cs)
      if accepts value then pure (value, rest) else throw .wrongShape

def isText : Json → Bool
  | .str _ => true
  | _ => false

def isBool : Json → Bool
  | .bool _ => true
  | _ => false

def isInt64 : Json → Bool
  | .int n => Decimal.minInt64 ≤ n && n ≤ Decimal.maxInt64
  | _ => false

/-- The key ahead, up to its colon. -/
def readKey (cs : List Char) : Except Misfit (Ahead String) :=
  match cs with
  | '"' :: rest => unreadable (readText (rest.length + 1) [] rest)
  | _ => .error .malformed

/-- Behind the colon of a key. -/
def readColon (cs : List Char) : Except Misfit (List Char) :=
  match skipSpace cs with
  | ':' :: rest => .ok rest
  | _ => .error .malformed

/-- Behind the comma in front of an item or an entry, unless it is the first one. -/
def readComma (first : Bool) (cs : List Char) : Except Misfit (List Char) :=
  if first then .ok (skipSpace cs)
  else
    match skipSpace cs with
    | ',' :: rest => .ok (skipSpace rest)
    | _ => .error .malformed

mutual

/-- The value ahead, with `depth` more containers allowed inside it. -/
def readFrom : (fuel depth : Nat) → Shape → List Char → Step
  | 0, _, _, _ => .error .malformed
  | fuel + 1, depth, shape, cs =>
      match shape with
      | .text => readScalar isText cs
      | .bool => readScalar isBool cs
      | .int64 => readScalar isInt64 cs
      | .whole accepts => do
          let (value, rest) ← unreadable (readValue (2 * cs.length + 2) depth cs)
          if accepts value then pure (value, rest) else throw .wrongShape
      | .nullable shape =>
          match skipSpace cs with
          | 'n' :: rest => (unreadable (expectWord ['u', 'l', 'l'] rest)).map (.null, ·)
          | cs => readFrom fuel depth shape cs
      | .record fields =>
          match skipSpace cs, depth with
          | '[' :: _, 0 | '\x7b' :: _, 0 => .error .malformed
          | '[' :: rest, depth + 1 => readItems fuel depth (fields.map (·.2)) [] rest
          | '\x7b' :: rest, depth + 1 => readEntries fuel depth fields [] [] rest
          | cs, _ => readScalar (fun _ => false) cs

/-- The items of an array that holds fields of these shapes; `done` holds those read, latest
first. -/
def readItems : (fuel depth : Nat) → List Shape → (done : List Json) → List Char → Step
  | 0, _, _, _, _ => .error .malformed
  | fuel + 1, depth, shapes, done, cs =>
      match skipSpace cs, shapes with
      | ']' :: rest, _ => .ok (.arr done.reverse, rest)
      | _, [] => .error .malformed
      | cs, shape :: shapes => do
          let cs ← readComma done.isEmpty cs
          if cs.head? == some ']' then throw .malformed
          let (item, rest) ← readFrom fuel depth shape cs
          readItems fuel depth shapes (item :: done) rest

/-- The entries of an object with these fields. `met` holds the keys read, known or not, and
`done` the known entries, latest first. -/
def readEntries : (fuel depth : Nat) → (fields : List (List String × Shape)) →
    (met : List String) → (done : Entries) → List Char → Step
  | 0, _, _, _, _, _ => .error .malformed
  | fuel + 1, depth, fields, met, done, cs =>
      match skipSpace cs with
      | '\x7d' :: rest => .ok (.obj done.reverse, rest)
      | cs => do
          let (key, rest) ← readKey (← readComma met.isEmpty cs)
          match fields.find? (·.1.contains key) with
          | some (keys, shape) =>
              if met.any keys.contains then throw .wrongShape
              let (value, rest) ← readFrom fuel depth shape (← readColon rest)
              readEntries fuel depth fields (key :: met) ((key, value) :: done) rest
          | none =>
              match skipValue? (← readColon rest) with
              | some rest => readEntries fuel depth fields (key :: met) done rest
              | none => throw .malformed

end

/-- The value of this shape at the front of a text and what follows it. What the value holds under
unknown keys is left out. -/
def readFront (shape : Shape) (text : String) : Step :=
  let cs := text.toList
  readFrom (2 * cs.length + 2) maxDepth shape cs

end Shape

end TaskDiagram.Json
