import TaskDiagram.Decimal.Style
import TaskDiagram.Decimal.Word
import TaskDiagram.Json.Basic
import TaskDiagram.Text.Quoted

/-!
# Reading values of the domain out of document values

A decoder turns a document value into a value of the domain or says why it cannot. The causes are
a closed list; their wording is `DecodeError.message`.
-/

namespace TaskDiagram

/-- What a decoder met instead of what it looked for. -/
inductive Found where
  | null
  | bool (b : Bool)
  | int (n : Int)
  | float (x : Float)
  | text (s : String)
  | sequence
  | map
  deriving Repr

namespace Found

def ofJson : Json → Found
  | .null => .null
  | .bool b => .bool b
  | .int n => .int n
  | .float x => .float x
  | .str s => .text s
  | .arr _ => .sequence
  | .obj _ => .map

def message : Found → String
  | .null => "null"
  | .bool b => "boolean `" ++ toString b ++ "`"
  | .int n => "integer `" ++ toString n ++ "`"
  | .float x => "floating point `" ++ Decimal.Style.document.text x ++ "`"
  | .text s => "string " ++ Text.quoted s
  | .sequence => "sequence"
  | .map => "map"

end Found

/-- Why a document value is not a value of the type asked for. -/
inductive DecodeError where
  | invalidType (found : Found) (expected : String)
  | invalidValue (found : Found) (expected : String)
  | invalidLength (length : Nat) (expected : String)
  | missingField (name : String)
  | duplicateField (name : String)
  | unknownField (name : String) (known : List String)
  | unknownVariant (name : String) (known : List String)
  /-- None of the alternatives of a choice fits. -/
  | noVariant (choice : String)
  deriving Repr

namespace DecodeError

def ticked (name : String) : String := "`" ++ name ++ "`"

/-- How a message lists the names it would accept. -/
def oneOf : List String → String
  | [] => "nothing"
  | [a] => ticked a
  | [a, b] => ticked a ++ " or " ++ ticked b
  | names => "one of " ++ ", ".intercalate (names.map ticked)

def message : DecodeError → String
  | invalidType found expected => "invalid type: " ++ found.message ++ ", expected " ++ expected
  | invalidValue found expected => "invalid value: " ++ found.message ++ ", expected " ++ expected
  | invalidLength length expected =>
      "invalid length " ++ toString length ++ ", expected " ++ expected
  | missingField name => "missing field " ++ ticked name
  | duplicateField name => "duplicate field " ++ ticked name
  | unknownField name known => "unknown field " ++ ticked name ++ ", expected " ++ oneOf known
  | unknownVariant name known => "unknown variant " ++ ticked name ++ ", expected " ++ oneOf known
  | noVariant choice => "data did not match any variant of untagged enum " ++ choice

end DecodeError

/-- A reader of one type. -/
abbrev Decoder (α : Type) := Json → Except DecodeError α

namespace Decode

/-- Refusal of a value whose kind is wrong. -/
def wrongType {α : Type} (expected : String) (value : Json) : Except DecodeError α :=
  .error (.invalidType (.ofJson value) expected)

def text : Decoder String
  | .str s => .ok s
  | value => wrongType "a string" value

def bool : Decoder Bool
  | .bool b => .ok b
  | value => wrongType "a boolean" value

/-- A whole number between two bounds. -/
def intWithin (low high : Int) (name : String) : Decoder Int
  | .int n => if low ≤ n && n ≤ high then .ok n else .error (.invalidValue (.int n) name)
  | value => wrongType name value

def int64 : Decoder Int64 := fun value =>
  (intWithin Decimal.minInt64 Decimal.maxInt64 "i64" value).map Int64.ofInt

/-- A natural number of at most `bits` bits. -/
def natWithin (bits : Nat) (name : String) : Decoder Nat := fun value =>
  (intWithin 0 (Nat.pow 2 bits - 1) name value).map Int.toNat

def float : Decoder Float
  | .int n => .ok (Float.ofInt n)
  | .float x => .ok x
  | value => wrongType "f64" value

/-- `null` is no value. -/
def option {α : Type} (decode : Decoder α) : Decoder (Option α)
  | .null => .ok none
  | value => (decode value).map some

/-- The items of a sequence; the first that fails decides. -/
def items {α : Type} (decode : Decoder α) : List Json → Except DecodeError (List α)
  | [] => .ok []
  | item :: rest => do
      let a ← decode item
      let more ← items decode rest
      pure (a :: more)

def list {α : Type} (decode : Decoder α) : Decoder (List α)
  | .arr values => items decode values
  | value => wrongType "a sequence" value

/-- The entries of an object, keys read by `key`; the first that fails decides. -/
def pairs {κ α : Type} (key : String → Except DecodeError κ) (decode : Decoder α) :
    Entries → Except DecodeError (List (κ × α))
  | [] => .ok []
  | (name, value) :: rest => do
      let k ← key name
      let a ← decode value
      let more ← pairs key decode rest
      pure ((k, a) :: more)

def map {κ α : Type} (key : String → Except DecodeError κ) (decode : Decoder α) :
    Decoder (List (κ × α))
  | .obj entries => pairs key decode entries
  | value => wrongType "a map" value

/-- One of a list of names. -/
def name {α : Type} (table : List (String × α)) (s : String) : Except DecodeError α :=
  match findValue? s table with
  | some a => .ok a
  | none => .error (.unknownVariant s (table.map (·.1)))

/-- One of a list of names, as a text or as the only key of an object that holds nothing. -/
def variantWith {α : Type} (holdsNothing : Json → Bool) (table : List (String × α)) : Decoder α
  | .str s => name table s
  | .obj [(s, value)] => do
      let a ← name table s
      if holdsNothing value then pure a else wrongType "unit" value
  | .obj _ => .error (.invalidValue .map "map with a single key")
  | value => wrongType "string or map" value

def variant {α : Type} (table : List (String × α)) : Decoder α :=
  variantWith Json.isNull table

/-- `variant` inside a value that may be read in several ways: there an empty object, too, holds
nothing. -/
def variantInChoice {α : Type} (table : List (String × α)) : Decoder α :=
  variantWith (fun value => value.isNull || value.isEmptyObject) table

end Decode

end TaskDiagram
