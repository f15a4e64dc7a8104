import TaskDiagram.Session.Conversation
import TaskDiagram.Store.Task
import TaskDiagram.Workspace

/-!
# What can be asked of the service

A request has been understood: its ids are ids and its body has the right shape. A reply is a
document value with links to what is related, or a value on its own.
-/

namespace TaskDiagram

inductive Request where
  /-- The stored tasks; `order` is how the request spells the order. -/
  | listTasks (sharedOnly : Bool) (order : Option String) (limit : Option Int64)
  | deleteTask (id : Uuid)
  /-- The program of a task, in the form the request spells. -/
  | readProgram (id : Uuid) (form : Option String)
  | writeProgram (id : Uuid) (name : Option String) (document : Json)
  | readDiagram (id : Uuid)
  | writeDiagram (id : Uuid) (name : Option String) (workspace : Workspace)
  | openChat (name : Option String)
  | takeTurn (session : Uuid) (turn : Turn)
  | grammar
  | health

inductive Reply where
  | linked (data : Json) (links : List (String × String))
  | plain (value : Json)

/-- What a request takes from outside: the time, and an id that is not in use. -/
structure Stamp where
  now : Moment
  fresh : Uuid
  deriving DecidableEq, Repr

/-- A reply as a document value. -/
def Reply.toJson : Reply → Json
  | linked data [] => .obj [("data", data)]
  | linked data links =>
      .obj [("_links", .obj (links.map fun (name, target) => (name, .str target))), ("data", data)]
  | plain value => value

namespace Link

def tasks : String := "/api/v1/tasks"

def task (id : Uuid) : String := tasks ++ "/" ++ id.text

def program (id : Uuid) : String := task id ++ "/program"

def diagram (id : Uuid) : String := task id ++ "/graph"

def turns (session : Uuid) : String := "/api/v1/chat/sessions/" ++ session.text ++ "/turns"

def grammar : String := "/api/v1/grammar"

end Link

end TaskDiagram
