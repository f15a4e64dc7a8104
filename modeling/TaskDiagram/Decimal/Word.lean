/-!
# Sizes of machine words

Numbers of 64 bits with a sign are what documents, fields and arguments can hold.
-/

namespace TaskDiagram.Decimal

def minInt64 : Int := -9223372036854775808

def maxInt64 : Int := 9223372036854775807

/-- The largest number of 64 bits without a sign. -/
def maxWord64 : Nat := 18446744073709551615

/-- Whether a number has 64 bits with a sign. -/
def fitsInt64 (n : Int) : Bool := minInt64 ≤ n && n ≤ maxInt64

end TaskDiagram.Decimal
