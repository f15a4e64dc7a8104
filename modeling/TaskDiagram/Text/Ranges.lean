/-!
# Tables of code points

A property of characters given as an increasing table of closed ranges of code points.
Membership halves the table at every step.
-/

namespace TaskDiagram.Text

/-- Closed ranges of code points, in increasing order and disjoint. -/
abbrev Ranges := Array (Nat × Nat)

namespace Ranges

/-- Binary search among the rows `lo ≤ i < lo + fuel` still in question. -/
def search (table : Ranges) (n : Nat) : (fuel lo hi : Nat) → Bool
  | 0, _, _ => false
  | fuel + 1, lo, hi =>
      if lo < hi then
        let mid := (lo + hi) / 2
        match table[mid]? with
        | none => false
        | some (first, last) =>
            if n < first then search table n fuel lo mid
            else if last < n then search table n fuel (mid + 1) hi
            else true
      else false

/-- Whether one of the ranges holds the character. -/
def has (table : Ranges) (c : Char) : Bool :=
  search table c.toNat (table.size + 1) 0 table.size

end Ranges

end TaskDiagram.Text
