import TaskDiagram.Decimal.Style
import TaskDiagram.Decimal.Whole
import TaskDiagram.Decimal.Word
import TaskDiagram.Json.Fields
import TaskDiagram.KeyOrder

/-!
# Fields of blocks

A block carries named values: a name or an id of a library item, or a count. A number keeps the
form in which it was given; a double that is a whole number counts as that number.
-/

namespace TaskDiagram

/-- Names of the fields the standard diagram uses. -/
def fieldName : String := "name"
def fieldId : String := "id"
def fieldTimes : String := "times"

inductive FieldValue where
  | int (n : Int64)
  | float (x : Float)
  | bool (b : Bool)
  | text (s : String)
  deriving Repr, Inhabited

namespace FieldValue

/-- The whole number a value is; beyond 64 bits the nearest bound. -/
def asInt : FieldValue → Option Int64
  | int n => some n
  | float x => (Decimal.whole? x).map Decimal.saturate
  | _ => none

def asText : FieldValue → Option String
  | text s => some s
  | _ => none

/-- The form people read. -/
def display : FieldValue → String
  | int n => toString n.toInt
  | float x => Decimal.Style.display.text x
  | bool b => toString b
  | text s => s

def toJson : FieldValue → Json
  | int n => .int n.toInt
  | float x => .float x
  | bool b => .bool b
  | text s => .str s

/-- A whole number beyond 64 bits with a sign becomes a double. -/
def decode : Decoder FieldValue
  | .int n =>
      if Decimal.fitsInt64 n then .ok (.int (.ofInt n)) else .ok (.float (.ofInt n))
  | .float x => .ok (.float x)
  | .bool b => .ok (.bool b)
  | .str s => .ok (.text s)
  | _ => .error (.noVariant "FieldValue")

/-- Equality of values; doubles are compared as numbers. -/
def beq : FieldValue → FieldValue → Bool
  | int m, int n => m == n
  | float x, float y => x == y
  | bool a, bool b => a == b
  | text s, text t => s == t
  | _, _ => false

instance : BEq FieldValue := ⟨beq⟩

end FieldValue

/-- The fields of a block by name. -/
abbrev FieldMap := TextMap FieldValue

namespace FieldMap

def toJson (fields : FieldMap) : Json :=
  .obj (fields.entries.map fun (name, value) => (name, value.toJson))

def decode : Decoder FieldMap := fun value =>
  (Decode.map .ok FieldValue.decode value).map TextMap.ofList

/-- Same names, equal values. -/
def same (a b : FieldMap) : Bool := a.entries == b.entries

end FieldMap

end TaskDiagram
