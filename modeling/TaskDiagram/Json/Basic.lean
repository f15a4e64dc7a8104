import TaskDiagram.KeyOrder

/-!
# Document values

The value every document, request and answer is made of. Whole numbers and fractions are kept
apart, and an object keeps its entries in the order of its text, repeated keys included, so that a
reader can still report a repetition. `canonical` is the form without that memory: keys in
increasing order, the last entry of each key.
-/

namespace TaskDiagram

inductive Json where
  | null
  | bool (b : Bool)
  | int (n : Int)
  | float (x : Float)
  | str (s : String)
  | arr (items : List Json)
  | obj (entries : List (String × Json))
  deriving Inhabited, Repr

/-- Entries of an object. -/
abbrev Entries := List (String × Json)

namespace Json

mutual

/-- The same value with sorted keys and without repetitions, at every depth. -/
def canonical : Json → Json
  | .null => .null
  | .bool b => .bool b
  | .int n => .int n
  | .float x => .float x
  | .str s => .str s
  | .arr items => .arr (canonicalItems items)
  | .obj entries => .obj (sortEntries (canonicalEntries entries))

def canonicalItems : List Json → List Json
  | [] => []
  | item :: rest => item.canonical :: canonicalItems rest

def canonicalEntries : List (String × Json) → List (String × Json)
  | [] => []
  | (key, value) :: rest => (key, value.canonical) :: canonicalEntries rest

end

mutual

/-- Number of containers on the longest way into a value. -/
def height : Json → Nat
  | .arr items => heightItems items + 1
  | .obj entries => heightEntries entries + 1
  | _ => 0

def heightItems : List Json → Nat
  | [] => 0
  | item :: rest => max item.height (heightItems rest)

def heightEntries : List (String × Json) → Nat
  | [] => 0
  | (_, value) :: rest => max value.height (heightEntries rest)

end

/-- The value under a key of an object; `null` when there is none. -/
def field (value : Json) (key : String) : Json :=
  match value with
  | .obj entries => (findValue? key entries).getD .null
  | _ => .null

/-- Whether an object has the key. -/
def hasKey (value : Json) (key : String) : Bool :=
  match value with
  | .obj entries => entries.any (·.1 == key)
  | _ => false

def isNull : Json → Bool
  | .null => true
  | _ => false

def isEmptyObject : Json → Bool
  | .obj [] => true
  | _ => false

/-- `none` is written as `null`. -/
def ofOption {α : Type} (write : α → Json) : Option α → Json
  | some a => write a
  | none => .null

def ofStrings (texts : List String) : Json :=
  .arr (texts.map .str)

/-- Entry for a value that is left out when unset. -/
def optionalEntry {α : Type} (key : String) (write : α → Json) : Option α → Entries
  | some a => [(key, write a)]
  | none => []

end Json

end TaskDiagram
