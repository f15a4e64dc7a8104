import TaskDiagram.Text.Printable

/-!
# Quoted text

Messages quote text so that every character of it can be told from its neighbours: the quote, the
backslash and the common controls take a backslash, and a character that would not show is written
as its code point.
-/

namespace TaskDiagram.Text

/-- Lower-case hexadecimal without leading zeros. -/
def hex (n : Nat) : List Char :=
  Nat.toDigits 16 n

/-- A code point in braces, as quoted text writes a character that would not show. -/
def codePoint (c : Char) : List Char :=
  ['\\', 'u', '\x7b'] ++ hex c.toNat ++ ['\x7d']

/-- One character as quoted text writes it. -/
def quotedChar (c : Char) : List Char :=
  if c == '"' then ['\\', '"']
  else if c == '\\' then ['\\', '\\']
  else if c == '\n' then ['\\', 'n']
  else if c == '\r' then ['\\', 'r']
  else if c == '\t' then ['\\', 't']
  else if c.toNat == 0 then ['\\', '0']
  else if isPrintable c then [c]
  else codePoint c

/-- Text between double quotes. -/
def quoted (s : String) : String :=
  String.ofList ('"' :: s.toList.flatMap quotedChar ++ ['"'])

end TaskDiagram.Text
