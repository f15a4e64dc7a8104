import TaskDiagram.Document.Error
import TaskDiagram.Json.Reader
import TaskDiagram.Program.Document
import TaskDiagram.Text.Blank
import TaskDiagram.Workspace
import TaskDiagram.Yaml.Document

/-!
# Reading documents

A text is tried in braces notation first. Where that fails, a text that begins with a brace is
reported as such; any other is read again in indentation notation.
-/

namespace TaskDiagram

namespace Document

/-- The document value of a text. -/
def readValue (text : String) : Except DocumentError Json :=
  match Json.read text with
  | .ok value => .ok value.canonical
  | .error failure =>
      match (Text.trimStart text).toList with
      | '\x7b' :: _ => .error (.text failure)
      | _ =>
          match Yaml.read text with
          | some value => .ok value.canonical
          | none => .error .outline

/-- The program of a text. -/
def readProgram (text : String) : Except DocumentError Program := do
  let value ← readValue text
  (Program.ofDocument value).mapError .shape

end Document

/-- What a text turns out to hold. -/
inductive Input where
  | program (p : Program)
  | workspace (w : Workspace)

/-- Reads a program, or a workspace where a key of one stands at the top. -/
def Input.read (text : String) : Except DocumentError Input := do
  let value ← Document.readValue text
  if value.hasKey "blocks" || value.hasKey "kind" then
    let payload ← (Payload.decode value).mapError .workspace
    return .workspace payload.toWorkspace
  else
    let p ← (Program.ofDocument value).mapError .shape
    return .program p

end TaskDiagram
