import TaskDiagram.Json.Basic

/-!
# Tables of a TOML text

Tables are filled in as a text goes on. A table may be written once only: under a header, by keys
with points in them, or in braces. What a header merely passes through may still be written later.
-/

namespace TaskDiagram.Toml

/-- How a table came to be. -/
inductive Origin where
  /-- Written under its own header, or the whole text. -/
  | header
  /-- Passed through by the header of a table inside it. -/
  | passed
  /-- Made by a key with points in it. -/
  | dotted
  deriving DecidableEq

inductive Item where
  | value (v : Json)
  | table (origin : Origin) (entries : List (String × Item))
  /-- Tables under a repeated header, the latest first. -/
  | tables (list : List (List (String × Item)))

abbrev Items := List (String × Item)

mutual

def Item.toJson : Item → Json
  | .value v => v
  | .table _ entries => .obj (itemsToJson entries)
  | .tables list => .arr (tablesToJson list).reverse

def itemsToJson : List (String × Item) → List (String × Json)
  | [] => []
  | (key, item) :: rest => (key, item.toJson) :: itemsToJson rest

def tablesToJson : List (List (String × Item)) → List Json
  | [] => []
  | entries :: rest => .obj (itemsToJson entries) :: tablesToJson rest

end

namespace Items

def get? (items : Items) (key : String) : Option Item := (items.find? (·.1 == key)).map (·.2)

/-- Puts an item under a key, in place of the one that is there. -/
def set (items : Items) (key : String) (item : Item) : Items :=
  if items.any (·.1 == key) then items.map fun (k, i) => if k == key then (k, item) else (k, i)
  else items ++ [(key, item)]

/-- Puts a value under a key that is not taken, behind the parts of a key with points. `origin` is
how the table came to be. -/
def addValue? (key : String) (v : Json) : (parts : List String) → (origin : Origin) → Items →
    Option Items
  | [], _, items => if (items.get? key).isSome then none else some (items.set key (.value v))
  | part :: parts, _, items =>
      match items.get? part with
      | none => do
          let inner ← addValue? key v parts .dotted []
          pure (items.set part (.table .dotted inner))
      | some (.table origin inner) =>
          if origin == .header then none
          else if parts.isEmpty && origin != .dotted then none
          else do
            let inner ← addValue? key v parts origin inner
            pure (items.set part (.table origin inner))
      | some (.tables (latest :: earlier)) =>
          if parts.isEmpty then none
          else do
            let inner ← addValue? key v parts .header latest
            pure (items.set part (.tables (inner :: earlier)))
      | some _ => none

/-- Changes the table at the end of a path, through the latest of repeated ones. Tables that are
not there yet are passed through. -/
def within? (change : Items → Option Items) : (path : List String) → Items → Option Items
  | [], items => change items
  | part :: path, items =>
      match items.get? part with
      | none => do
          let inner ← within? change path []
          pure (items.set part (.table .passed inner))
      | some (.table origin inner) => do
          let inner ← within? change path inner
          pure (items.set part (.table origin inner))
      | some (.tables (latest :: earlier)) => do
          let inner ← within? change path latest
          pure (items.set part (.tables (inner :: earlier)))
      | some _ => none

/-- A header: its table may have been passed through but not written. -/
def addHeader? (key : String) (items : Items) : Option Items :=
  match items.get? key with
  | none => some (items.set key (.table .header []))
  | some (.table .passed inner) => some (items.set key (.table .header inner))
  | some _ => none

/-- A repeated header: one more table in the list. -/
def addRepeated? (key : String) (items : Items) : Option Items :=
  match items.get? key with
  | none => some (items.set key (.tables [[]]))
  | some (.tables list) => some (items.set key (.tables ([] :: list)))
  | some _ => none

end Items

end TaskDiagram.Toml
