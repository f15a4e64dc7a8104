import TaskDiagram.Json.Printer
import TaskDiagram.Json.Reader

/-!
# Documents nested too deeply to be read back

A document can be written however deep it is, but a reader of text goes only so far down. What is
kept as text is therefore lost to its readers beyond that depth, and they can tell where in the
text they had to stop.
-/

namespace TaskDiagram.Json

/-- Whether the text of a value can be read. -/
def isReadable (value : Json) : Bool := value.height ≤ maxDepth

/-- Byte column, counted from `column`, of the first bracket that opens a container more than
`room` deep; `quoted` says whether the text begins inside quotes. -/
def overflowColumn? (column room : Nat) (quoted : Bool) : List Char → Option Nat
  | [] => none
  | c :: rest =>
      let next := column + c.utf8Size
      if quoted then
        if c == '\\' then
          match rest with
          | [] => none
          | escaped :: rest => overflowColumn? (next + escaped.utf8Size) room true rest
        else overflowColumn? next room (c != '"') rest
      else if c == '"' then overflowColumn? next room true rest
      else if c == '[' || c == '\x7b' then
        match room with
        | 0 => some column
        | room + 1 => overflowColumn? next room false rest
      else if c == ']' || c == '\x7d' then overflowColumn? next (room + 1) false rest
      else overflowColumn? next room false rest

/-- Where a reader of the text of a value has to stop. -/
def stopColumn (value : Json) : Nat :=
  (overflowColumn? 1 maxDepth false value.compact.toList).getD 0

end TaskDiagram.Json
