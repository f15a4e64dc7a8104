import TaskDiagram.Document.Error
import TaskDiagram.Graph.Edit
import TaskDiagram.Session.Conversation
import TaskDiagram.Store.Error
import TaskDiagram.Uuid

/-!
# Why a request is refused

Each cause has a status, a code that programs can rely on, and a message for people.
-/

namespace TaskDiagram

inductive ServiceError where
  | storage (error : StorageError)
  | document (error : DocumentError)
  | graph (error : GraphError)
  | chat (session : Uuid) (error : ConversationError)
  /-- The request names something that does not exist. -/
  | notFound (what : String)
  | invalid (message : String)
  | internal (message : String)
  deriving Repr

namespace ServiceError

def status : ServiceError → Nat
  | storage .missing => 404
  | storage (.conflict _) => 409
  | storage _ => 500
  | document _ => 400
  | graph _ => 422
  | chat .. => 409
  | notFound _ => 404
  | invalid _ => 400
  | internal _ => 500

def code : ServiceError → String
  | storage .missing => "NOT_FOUND"
  | storage (.conflict _) => "CONFLICT"
  | storage _ => "STORAGE_ERROR"
  | document _ => "INVALID_DOCUMENT"
  | graph _ => "INVALID_GRAPH"
  | chat .. => "CHAT_FINISHED"
  | notFound _ => "NOT_FOUND"
  | invalid _ => "VALIDATION_ERROR"
  | internal _ => "INTERNAL_ERROR"

def message : ServiceError → String
  | storage (.conflict m) => m
  | storage e => e.message
  | document e => e.message
  | graph e => e.message
  | chat session e => e.message session.text
  | notFound what => what ++ " not found"
  | invalid m => m
  | internal m => m

/-- The errors of a response. -/
def toJson (e : ServiceError) : Json :=
  .obj [("errors", .arr [.obj [("code", .str e.code), ("message", .str e.message)]])]

end ServiceError

end TaskDiagram
