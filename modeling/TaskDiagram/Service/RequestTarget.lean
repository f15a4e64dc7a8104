import TaskDiagram.Text.Blank
import TaskDiagram.Text.Hex
import TaskDiagram.Text.Utf8

/-!
# Targets of requests

A target is a path, then, behind a question mark, a query: names with values. The host may stand
in front. In both a percent sign and two digits stand for a byte; in a query, too, a plus sign
stands for a space.
-/

namespace TaskDiagram

/-- Bytes with every percent sign and two digits read as the byte they stand for. -/
def percentDecoded : List Nat → List Nat
  | 0x25 :: a :: b :: rest =>
      match Text.hexValue? (Char.ofNat a), Text.hexValue? (Char.ofNat b) with
      | some high, some low => (high * 16 + low) :: percentDecoded rest
      | _, _ => 0x25 :: percentDecoded (a :: b :: rest)
  | b :: rest => b :: percentDecoded rest
  | [] => []

structure RequestTarget where
  /-- Pieces of the path between slashes. -/
  path : List String
  /-- Names of the query with their values, in order. -/
  query : List (String × String)
  deriving DecidableEq, Repr

namespace RequestTarget

/-- One piece of a path. -/
def pathPiece (s : String) : String := Text.ofBytes (percentDecoded (Text.toBytes s))

/-- A name or a value of a query. -/
def queryPiece (cs : List Char) : String :=
  let plain := String.ofList (cs.map fun c => if c == '+' then ' ' else c)
  Text.ofBytes (percentDecoded (Text.toBytes plain))

/-- A name and its value. -/
def queryPair (cs : List Char) : String × String :=
  (queryPiece (cs.takeWhile (· != '=')), queryPiece ((cs.dropWhile (· != '=')).drop 1))

def queryPairs (cs : List Char) : List (String × String) :=
  ((Text.splitList (· == '&') cs).filter (!·.isEmpty)).map queryPair

/-- Characters of the name of a scheme. -/
def isSchemeChar (c : Char) : Bool := c.isAlphanum || c == '+' || c == '-' || c == '.'

/-- A target without the scheme and the host in front of its path. -/
def withoutHost (cs : List Char) : List Char :=
  match cs.dropWhile isSchemeChar with
  | ':' :: '/' :: '/' :: rest => rest.dropWhile fun c => c != '/' && c != '?'
  | _ => cs

/-- Reads a target; a mark of a place within the answer is passed over. -/
def ofText (s : String) : RequestTarget :=
  let cs := withoutHost (s.toList.takeWhile (· != '#'))
  { path := Text.splitOnChar '/' (String.ofList (cs.takeWhile (· != '?')))
    query := queryPairs ((cs.dropWhile (· != '?')).drop 1) }

end RequestTarget

end TaskDiagram
