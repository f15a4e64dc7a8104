/-!
# Blank characters and letter case of plain text

White space here is the White_Space property of the Unicode standard, which is wider than the
four characters a document format skips. Case folding in this module touches ASCII letters only:
keywords of the domain are ASCII, and any other letter is left as it stands.
-/

namespace TaskDiagram.Text

/-- The White_Space property. -/
def isBlank (c : Char) : Bool :=
  let n := c.toNat
  (9 ≤ n && n ≤ 13) || n == 0x20 || n == 0x85 || n == 0xa0 || n == 0x1680 ||
    (0x2000 ≤ n && n ≤ 0x200a) || n == 0x2028 || n == 0x2029 || n == 0x202f ||
    n == 0x205f || n == 0x3000

/-- A list without the characters satisfying `p` at either end. -/
def stripList (p : Char → Bool) (cs : List Char) : List Char :=
  ((cs.dropWhile p).reverse.dropWhile p).reverse

/-- Text without blanks at either end. -/
def trim (s : String) : String :=
  String.ofList (stripList isBlank s.toList)

/-- Text without blanks at its start. -/
def trimStart (s : String) : String :=
  String.ofList (s.toList.dropWhile isBlank)

/-- ASCII letters in upper case. -/
def upperAscii (s : String) : String :=
  String.ofList (s.toList.map Char.toUpper)

/-- ASCII letters in lower case. -/
def lowerAscii (s : String) : String :=
  String.ofList (s.toList.map Char.toLower)

/-- Pieces of `cs` between the separators satisfying `p`; never the empty list. -/
def splitList (p : Char → Bool) : List Char → List (List Char)
  | [] => [[]]
  | c :: rest =>
      if p c then [] :: splitList p rest
      else match splitList p rest with
        | [] => [[c]]
        | piece :: pieces => (c :: piece) :: pieces

/-- Pieces of a text between occurrences of one character. -/
def splitOnChar (sep : Char) (s : String) : List String :=
  (splitList (· == sep) s.toList).map String.ofList

end TaskDiagram.Text
