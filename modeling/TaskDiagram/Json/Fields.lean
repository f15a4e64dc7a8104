import TaskDiagram.Json.Decode

/-!
# Records in documents

A record is written as an object or as the array of its fields in order. `Fields α` reads either:
it is built field by field and knows, for every failure, where in the object it stands. Of several
failures the one that stands first is reported; what is missing stands behind all entries, in the
order of the fields.
-/

namespace TaskDiagram

/-- A failure and the index of the entry it belongs to. -/
structure Fault where
  position : Nat
  error : DecodeError

/-- A reader of some of the fields of a record. -/
structure Fields (α : Type) where
  /-- Number of fields. -/
  count : Nat
  /-- Every key that names one of the fields. -/
  keys : List String
  /-- Reads the fields out of the entries of an object. -/
  ofEntries : Entries → Except Fault α
  /-- Reads the fields off the front of an array, given the index of the first one and what to
  report when the array ends at an index. -/
  ofItems : (Nat → DecodeError) → Nat → List Json → Except DecodeError (α × List Json)

namespace Fields

variable {α β : Type}

/-- Entries under one of the keys, with their indices. -/
def occurrences (keys : List String) (entries : Entries) : List (Json × Nat) :=
  (entries.zipIdx.filter fun (entry, _) => keys.contains entry.1).map
    fun (entry, i) => (entry.2, i)

/-- What a missing field stands for: in an object, and at the end of an array. -/
structure Absent (α : Type) where
  inObject : Option α
  inArray : Option α

def required : Absent α := ⟨none, none⟩

def orElse (a : α) : Absent α := ⟨some a, some a⟩

/-- One field, known under `name` and further names. -/
def field (name : String) (aliases : List String) (absent : Absent α) (decode : Decoder α) :
    Fields α where
  count := 1
  keys := name :: aliases
  ofEntries entries :=
    match occurrences (name :: aliases) entries with
    | [] =>
        match absent.inObject with
        | some a => .ok a
        | none => .error ⟨entries.length, .missingField name⟩
    | (value, i) :: more =>
        match decode value with
        | .error e => .error ⟨i, e⟩
        | .ok a =>
            match more with
            | [] => .ok a
            | (_, j) :: _ => .error ⟨j, .duplicateField name⟩
  ofItems short index
    | [] =>
        match absent.inArray with
        | some a => .ok (a, [])
        | none => .error (short index)
    | value :: rest => (decode value).map (·, rest)

def map (f : α → β) (fields : Fields α) : Fields β where
  count := fields.count
  keys := fields.keys
  ofEntries entries := (fields.ofEntries entries).map f
  ofItems short index values := (fields.ofItems short index values).map fun (a, rest) => (f a, rest)

/-- The fault that stands first; of two at one place the left one. -/
def earlier (left right : Fault) : Fault :=
  if right.position < left.position then right else left

/-- Fields of `f` followed by the fields of `a`. -/
def app (f : Fields (α → β)) (a : Fields α) : Fields β where
  count := f.count + a.count
  keys := f.keys ++ a.keys
  ofEntries entries :=
    match f.ofEntries entries, a.ofEntries entries with
    | .ok f, .ok a => .ok (f a)
    | .error left, .error right => .error (earlier left right)
    | .error left, .ok _ => .error left
    | .ok _, .error right => .error right
  ofItems short index values := do
    let (g, rest) ← f.ofItems short index values
    let (b, rest) ← a.ofItems short (index + f.count) rest
    return (g b, rest)

/-- No field at all. -/
def pure (a : α) : Fields α where
  count := 0
  keys := []
  ofEntries _ := .ok a
  ofItems _ _ values := .ok (a, values)

instance : Functor Fields where
  map := Fields.map

instance : Seq Fields where
  seq f a := f.app (a ())

/-- A field that may be `null` or missing, known under further names as well. -/
def optionalAs (name : String) (aliases : List String) (decode : Decoder α) :
    Fields (Option α) :=
  field name aliases (orElse none) (Decode.option decode)

/-- A field that may be `null` or missing. -/
def optional (name : String) (decode : Decoder α) : Fields (Option α) :=
  optionalAs name [] decode

/-- A field with a value for when it is missing. -/
def defaulted (name : String) (value : α) (decode : Decoder α) : Fields α :=
  field name [] (orElse value) decode

/-- A field that has to be there. -/
def need (name : String) (decode : Decoder α) : Fields α :=
  field name [] required decode

/-- What a record of this many fields is called when its array is too short. -/
def elements (expected : String) (count : Nat) : String :=
  expected ++ " with " ++ toString count ++ (if count == 1 then " element" else " elements")

/-- Reads a record called `expected` out of the items of an array. -/
def readItems (fields : Fields α) (expected : String) (excess : String) (values : List Json) :
    Except DecodeError α := do
  let short := fun index => DecodeError.invalidLength index (elements expected fields.count)
  let (a, rest) ← fields.ofItems short 0 values
  match rest with
  | [] => .ok a
  | _ :: _ => throw (.invalidLength values.length excess)

/-- Reads fields out of the entries of an object. -/
def entriesOnly (fields : Fields α) (entries : Entries) : Except DecodeError α :=
  (fields.ofEntries entries).mapError (·.error)

/-- What is expected instead of an array that goes on behind the last field. -/
def excess : String := "fewer elements in array"

/-- Reads a record called `name`; keys that name no field are passed over. -/
def read (name : String) (fields : Fields α) : Decoder α
  | .obj entries => fields.entriesOnly entries
  | .arr values => fields.readItems ("struct " ++ name) excess values
  | value => Decode.wrongType ("struct " ++ name) value

/-- `read`, except that an array may go on behind the last field. -/
def readOpen (name : String) (fields : Fields α) : Decoder α
  | .arr values => do
      let short := fun index =>
        DecodeError.invalidLength index (elements ("struct " ++ name) fields.count)
      let (a, _) ← fields.ofItems short 0 values
      .ok a
  | value => fields.read name value

/-- The first key that names no field. -/
def firstUnknown? (fields : Fields α) (entries : Entries) : Option Fault :=
  (entries.zipIdx.find? fun (entry, _) => !fields.keys.contains entry.1).map
    fun (entry, i) => ⟨i, .unknownField entry.1 fields.keys⟩

/-- Reads a record called `name` that admits no other keys than its own. -/
def readStrict (name : String) (fields : Fields α) : Decoder α
  | .obj entries =>
      match fields.ofEntries entries, fields.firstUnknown? entries with
      | .ok a, none => .ok a
      | .ok _, some unknown => .error unknown.error
      | .error fault, none => .error fault.error
      | .error fault, some unknown => .error (earlier fault unknown).error
  | value => fields.read name value

end Fields

end TaskDiagram
