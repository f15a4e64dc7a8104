import TaskDiagram.Text.Hex

/-!
# Identifiers

Tasks and conversations are known by numbers of 128 bits. They are written as 32 digits in five
groups. They are read from that form, also in braces or behind `urn:uuid:`, and from the digits
alone.
-/

namespace TaskDiagram

structure Uuid where
  bits : BitVec 128
  deriving DecidableEq, Repr, Inhabited

namespace Uuid

/-- The 32 digits of an identifier. -/
def digits (id : Uuid) : List Char :=
  (List.range 32).map fun i => Text.hexDigit (id.bits.toNat / Nat.pow 16 (31 - i) % 16)

/-- Places of the hyphens in the written form. -/
def hyphens : List Nat := [8, 13, 18, 23]

def text (id : Uuid) : String :=
  let d := id.digits
  String.ofList (d.take 8 ++ '-' :: (d.drop 8).take 4 ++ '-' :: (d.drop 12).take 4 ++
    '-' :: (d.drop 16).take 4 ++ '-' :: d.drop 20)

/-- The identifier with these 32 digits. -/
def ofDigits? (cs : List Char) : Option Uuid :=
  if cs.length == 32 then
    (cs.foldlM (fun n c => (Text.hexValue? c).map (n * 16 + ·)) 0).map fun n => ⟨.ofNat 128 n⟩
  else none

/-- The identifier with these digits in groups. -/
def ofGroups? (cs : List Char) : Option Uuid :=
  if cs.length == 36 && hyphens.all (cs[·]? == some '-') then
    ofDigits? ((cs.zipIdx.filter fun (_, i) => !hyphens.contains i).map (·.1))
  else none

def ofText? (s : String) : Option Uuid :=
  match s.toList with
  | 'u' :: 'r' :: 'n' :: ':' :: 'u' :: 'u' :: 'i' :: 'd' :: ':' :: rest => ofGroups? rest
  | '\x7b' :: rest => if rest.getLast? == some '\x7d' then ofGroups? rest.dropLast else none
  | cs => (ofDigits? cs).or (ofGroups? cs)

/-- An id that carries the time of its making in milliseconds, and 74 bits of chance. -/
def ofTime (milliseconds chance : Nat) : Uuid :=
  let time := BitVec.ofNat 48 milliseconds
  let chance := BitVec.ofNat 74 chance
  ⟨time ++ 7#4 ++ chance.extractLsb' 62 12 ++ 2#2 ++ chance.setWidth 62⟩

end Uuid

end TaskDiagram
