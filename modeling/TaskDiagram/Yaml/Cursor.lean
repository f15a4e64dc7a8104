/-!
# Places in a YAML text

A cursor knows the text ahead and where it stands. Line breaks are those of YAML 1.1: carriage
return and line feed, alone or together, next line, and the two Unicode separators.
-/

namespace TaskDiagram.Yaml

def isBreak (c : Char) : Bool :=
  c == '\r' || c == '\n' || c == '\u0085' || c == '\u2028' || c == '\u2029'

def isBlank (c : Char) : Bool := c == ' ' || c == '\t'

/-- Letters, digits, `_` and `-`: what names are made of. -/
def isWord (c : Char) : Bool := c.isAlphanum || c == '_' || c == '-'

/-- Whether a character may stand in a text at all. -/
def isAllowed (c : Char) : Bool :=
  let n := c.toNat
  n == 0x09 || n == 0x0a || n == 0x0d || (0x20 ≤ n && n ≤ 0x7e) || n == 0x85 ||
    (0xa0 ≤ n && n ≤ 0xd7ff) || (0xe000 ≤ n && n ≤ 0xfffd) || 0x10000 ≤ n

structure Cursor where
  rest : List Char
  /-- Bytes before this place. -/
  index : Nat
  line : Nat
  /-- Characters of the line before this place. -/
  column : Nat

namespace Cursor

def start (cs : List Char) : Cursor := ⟨cs, 0, 0, 0⟩

def atEnd (c : Cursor) : Bool := c.rest.isEmpty

/-- The character ahead. -/
def peek? (c : Cursor) : Option Char := c.rest.head?

/-- Whether the character ahead, after `n` others, satisfies `p`. -/
def has (c : Cursor) (p : Char → Bool) (n : Nat := 0) : Bool :=
  match c.rest.drop n with
  | ch :: _ => p ch
  | [] => false

/-- Whether this character is ahead. -/
def sees (c : Cursor) (ch : Char) (n : Nat := 0) : Bool := c.has (· == ch) n

/-- Whether a blank, a line break or the end is ahead. -/
def blankAhead (c : Cursor) (n : Nat := 0) : Bool :=
  match c.rest.drop n with
  | ch :: _ => isBlank ch || isBreak ch
  | [] => true

/-- Whether a line break or the end is ahead. -/
def lineEndAhead (c : Cursor) : Bool :=
  match c.rest with
  | ch :: _ => isBreak ch
  | [] => true

/-- Past `n` characters of one line. -/
def skip (c : Cursor) (n : Nat := 1) : Cursor :=
  let size := (c.rest.take n).foldl (fun total ch => total + ch.utf8Size) 0
  { c with rest := c.rest.drop n, index := c.index + size, column := c.column + n }

/-- Past a line break, with the character it counts as. -/
def takeBreak (c : Cursor) : List Char × Cursor :=
  match c.rest with
  | '\r' :: '\n' :: rest => (['\n'], ⟨rest, c.index + 2, c.line + 1, 0⟩)
  | ch :: rest =>
      let next : Cursor := ⟨rest, c.index + ch.utf8Size, c.line + 1, 0⟩
      if ch == '\u2028' || ch == '\u2029' then ([ch], next)
      else if isBreak ch then (['\n'], next)
      else ([], c)
  | [] => ([], c)

/-- Past a line break, if one is ahead. -/
def skipBreak (c : Cursor) : Cursor := c.takeBreak.2

/-- The characters ahead that satisfy `p`, none of which is a line break, and the place behind
them. -/
def takeWhile (c : Cursor) (p : Char → Bool) : List Char × Cursor :=
  let taken := c.rest.takeWhile p
  (taken, c.skip taken.length)

def skipWhile (c : Cursor) (p : Char → Bool) : Cursor := (c.takeWhile p).2

/-- Past a byte order mark, which may begin a line. -/
def skipByteOrderMark (c : Cursor) : Cursor :=
  if c.column == 0 && c.sees '\ufeff' then c.skip else c

/-- Past a comment, if one is ahead. -/
def skipComment (c : Cursor) : Cursor :=
  if c.sees '#' then c.skipWhile (!isBreak ·) else c

/-- Past blanks, a comment and a line break; nothing else may be ahead. -/
def skipLineRest? (c : Cursor) : Option Cursor :=
  let c := (c.skipWhile isBlank).skipComment
  if c.lineEndAhead then some c.skipBreak else none

/-- Whether a line that marks the limits of a document is ahead. -/
def documentMark (c : Cursor) : Bool :=
  c.column == 0 && ((c.sees '-' && c.sees '-' 1 && c.sees '-' 2) ||
    (c.sees '.' && c.sees '.' 1 && c.sees '.' 2)) && c.blankAhead 3

end Cursor

end TaskDiagram.Yaml
