import TaskDiagram.Json.Basic
import TaskDiagram.Decimal.Style
import TaskDiagram.Text.Hex

/-!
# Writing document text

Compact text without any space, and indented text with two spaces a level. Both write an object in
the order of its entries.
-/

namespace TaskDiagram.Json

/-- One character inside a quoted text. -/
def escapeChar (c : Char) : List Char :=
  if c == '"' then ['\\', '"']
  else if c == '\\' then ['\\', '\\']
  else if c == '\x08' then ['\\', 'b']
  else if c == '\x0c' then ['\\', 'f']
  else if c == '\n' then ['\\', 'n']
  else if c == '\r' then ['\\', 'r']
  else if c == '\t' then ['\\', 't']
  else if c.toNat < 0x20 then
    ['\\', 'u', '0', '0', Text.hexDigit (c.toNat / 16), Text.hexDigit (c.toNat % 16)]
  else [c]

/-- A text between quotes. -/
def writeText (s : String) : String :=
  String.ofList ('"' :: s.toList.flatMap escapeChar ++ ['"'])

/-- A value that holds no other. -/
def writeScalar : Json → String
  | .null => "null"
  | .bool true => "true"
  | .bool false => "false"
  | .int n => toString n
  | .float x => Decimal.Style.document.text x
  | .str s => writeText s
  | .arr _ => "[]"
  | .obj _ => "\x7b\x7d"

mutual

/-- Text without any space. -/
def compact : Json → String
  | .arr items => "[" ++ compactItems items ++ "]"
  | .obj entries => "\x7b" ++ compactEntries entries ++ "\x7d"
  | .null => writeScalar .null
  | .bool b => writeScalar (.bool b)
  | .int n => writeScalar (.int n)
  | .float x => writeScalar (.float x)
  | .str s => writeScalar (.str s)

def compactItems : List Json → String
  | [] => ""
  | [item] => item.compact
  | item :: rest => item.compact ++ "," ++ compactItems rest

def compactEntries : List (String × Json) → String
  | [] => ""
  | [(key, value)] => writeText key ++ ":" ++ value.compact
  | (key, value) :: rest => writeText key ++ ":" ++ value.compact ++ "," ++ compactEntries rest

end

/-- A new line at a depth of nesting. -/
def lineAt (depth : Nat) : String :=
  "\n" ++ String.ofList (List.replicate (2 * depth) ' ')

mutual

/-- Indented text of a value that stands `depth` levels deep. -/
def indentedAt (depth : Nat) : Json → String
  | .arr [] => "[]"
  | .obj [] => "\x7b\x7d"
  | .arr items => "[" ++ indentedItems (depth + 1) items ++ lineAt depth ++ "]"
  | .obj entries => "\x7b" ++ indentedEntries (depth + 1) entries ++ lineAt depth ++ "\x7d"
  | .null => writeScalar .null
  | .bool b => writeScalar (.bool b)
  | .int n => writeScalar (.int n)
  | .float x => writeScalar (.float x)
  | .str s => writeScalar (.str s)

def indentedItems (depth : Nat) : List Json → String
  | [] => ""
  | [item] => lineAt depth ++ indentedAt depth item
  | item :: rest => lineAt depth ++ indentedAt depth item ++ "," ++ indentedItems depth rest

def indentedEntries (depth : Nat) : List (String × Json) → String
  | [] => ""
  | [(key, value)] => lineAt depth ++ writeText key ++ ": " ++ indentedAt depth value
  | (key, value) :: rest =>
      lineAt depth ++ writeText key ++ ": " ++ indentedAt depth value ++ "," ++
        indentedEntries depth rest

end

/-- Text with two spaces a level. -/
def indented (value : Json) : String := indentedAt 0 value

end TaskDiagram.Json
