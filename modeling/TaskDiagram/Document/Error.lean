import TaskDiagram.Json.Decode
import TaskDiagram.Json.Number

/-!
# Why a document could not be read

A document fails as text, in one of its two notations, or as a value of the wrong shape.
-/

namespace TaskDiagram

inductive DocumentError where
  /-- Braces notation that is cut off or malformed. -/
  | text (failure : Json.Failure)
  /-- Indentation notation that is malformed or has no document value. -/
  | outline
  /-- A document value that is no program. -/
  | shape (error : DecodeError)
  /-- A document value that looks like a workspace and is none. -/
  | workspace (error : DecodeError)
  deriving Repr

def Json.Failure.message : Json.Failure → String
  | incomplete => "the last line of the text is cut off"
  | malformed => "a line of the text is malformed"

namespace DocumentError

/-- What is wrong, and what is wrong in turn with it. -/
def messages : DocumentError → List String
  | text failure => ["invalid JSON: " ++ failure.message, failure.message]
  | outline => ["invalid YAML: the text is malformed", "the text is malformed"]
  | shape e => ["invalid JSON: " ++ e.message, e.message]
  | workspace e => ["invalid block workspace", e.message]

/-- What is wrong in one line. -/
def message : DocumentError → String
  | text failure => "invalid JSON: " ++ failure.message
  | outline => "invalid YAML: the text is malformed"
  | shape e => "invalid JSON: " ++ e.message
  | workspace e => "invalid block workspace: " ++ e.message

end DocumentError

end TaskDiagram
