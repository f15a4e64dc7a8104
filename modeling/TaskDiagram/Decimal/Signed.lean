import TaskDiagram.Decimal.Word

/-!
# Signed numbers of 64 bits in plain text

One sign at most, then digits alone.
-/

namespace TaskDiagram.Decimal

/-- Value of a nonempty run of digits. -/
def readDigits? (cs : List Char) : Option Nat :=
  if !cs.isEmpty && cs.all Char.isDigit then
    some (cs.foldl (fun n c => n * 10 + (c.toNat - 48)) 0)
  else none

/-- The number a text writes, if it has 64 bits. -/
def readInt64? (s : String) : Option Int64 := do
  let n ← match s.toList with
    | '-' :: digits => (readDigits? digits).map fun n => -(n : Int)
    | '+' :: digits => (readDigits? digits).map fun n => (n : Int)
    | digits => (readDigits? digits).map fun n => (n : Int)
  if fitsInt64 n then some (.ofInt n) else none

end TaskDiagram.Decimal
