import TaskDiagram.Config
import TaskDiagram.Grammar.Description
import TaskDiagram.Grammar.Standard
import TaskDiagram.Graph.OfProgram
import TaskDiagram.Graph.OfWorkspace
import TaskDiagram.Graph.ToProgram
import TaskDiagram.Graph.ToWorkspace
import TaskDiagram.Graph.Validation
import TaskDiagram.Library.Repair
import TaskDiagram.Service.Error
import TaskDiagram.Service.Request
import TaskDiagram.Store.Database
import TaskDiagram.Text.Lowercase

/-!
# The service

The service keeps tasks, the library and the conversations in progress. A conversation is kept
until its finishing turn, which stores what it led to as a new task. A request that is refused
leaves everything as it was.
-/

namespace TaskDiagram

/-- A conversation in progress and the name of the task it will become. -/
structure PendingChat where
  conversation : Conversation
  taskName : String
  deriving DecidableEq, Repr

structure Application extends Database where
  config : Config
  chats : List (Uuid × PendingChat)

namespace Application

/-- A service that has nothing yet. -/
def new (config : Config) : Application := ⟨.empty, config, []⟩

/-- How a request ends: with a reply and what the service has become, or with a refusal. -/
abbrev Answer := Except ServiceError (Reply × Application)

def chat? (app : Application) (session : Uuid) : Option PendingChat :=
  (app.chats.find? (·.1 = session)).map (·.2)

def eraseChat (app : Application) (session : Uuid) : Application :=
  { app with chats := app.chats.filter (·.1 ≠ session) }

/-- Puts a conversation in the place of the one with its id, or behind all others. -/
def putChat (app : Application) (session : Uuid) (chat : PendingChat) : Application :=
  { app with
    chats := if app.chats.any (·.1 = session) then
        app.chats.map fun entry => if entry.1 = session then (session, chat) else entry
      else app.chats ++ [(session, chat)] }

/-- Findings of a diagram, as a document value. -/
def findings (app : Application) (g : Graph) : Json :=
  .arr ((g.validate (some app.library)).map Warning.toJson)

def diagramOf (app : Application) (p : Program) : Graph :=
  .ofProgram .standard app.config.layout p

/-- The task with an id. -/
def find (app : Application) (id : Uuid) : Except ServiceError StoredTask := do
  match ← (app.tasks.get? id).mapError .storage with
  | some task => pure task
  | none => throw (.notFound ("task " ++ id.text))

/-- A text, unless it is blank. -/
def nonblank (s : Option String) : Option String := s.filter fun s => Text.trim s != ""

/-- The task with an id, or a new one under that id, under the name it is given, if any. -/
def findOrNew (app : Application) (stamp : Stamp) (id : Uuid) (name : Option String) :
    Except ServiceError StoredTask := do
  let stored ← (app.tasks.get? id).mapError .storage
  let task := stored.getD (.new id "untitled" stamp.now)
  return { task with info :=
    { task.info with name := (nonblank name).getD task.info.name, updated := stamp.now } }

/-- The order a request spells; the latest task first where it spells none. -/
def sortOrder : Option String → Except ServiceError SortOrder
  | none => .ok .descending
  | some s =>
      let word := Text.lowercase s
      if word == "desc" then .ok .descending
      else if word == "asc" then .ok .ascending
      else .error (.invalid ("unknown sort order '" ++ word ++ "'"))

/-- The document of a program in the form a request spells. -/
def documentIn (form : Option String) (p : Program) : Except ServiceError Json :=
  match form with
  | none => .ok p.graphicDocument
  | some word =>
      if word == "graphic" then .ok p.graphicDocument
      else if word == "nullable" then .ok p.nullableDocument
      else .error (.invalid ("unknown document form '" ++ word ++ "'"))

def listTasks (app : Application) (sharedOnly : Bool) (order : Option String)
    (limit : Option Int64) : Answer := do
  let order ← sortOrder order
  let tasks ← (app.tasks.list ⟨sharedOnly, order, limit⟩).mapError .storage
  return (.linked (.arr (tasks.map (·.info.toJson))) [("self", Link.tasks)], app)

def deleteTask (app : Application) (id : Uuid) : Answer :=
  match app.tasks.erase? id with
  | some tasks => .ok (.linked (.obj [("deleted", .str id.text)]) [], { app with tasks })
  | none => .error (.notFound ("task " ++ id.text))

def readProgram (app : Application) (id : Uuid) (form : Option String) : Answer := do
  let task ← app.find id
  let document ← documentIn form task.program
  return (.linked document [("graph", Link.diagram id), ("self", Link.program id)], app)

def writeProgram (app : Application) (stamp : Stamp) (id : Uuid) (name : Option String)
    (document : Json) : Answer := do
  let program ← (Program.ofDocument document).mapError fun e => .document (.shape e)
  let task ← app.findOrNew stamp id name
  let saved := Json.obj
    [("task", task.info.toJson), ("warnings", app.findings (app.diagramOf program))]
  return (.linked saved [("self", Link.program id)],
    { app with tasks := app.tasks.put { task with program } })

/-- The diagram of a task, after its references took over the present names of the library. -/
def readDiagram (app : Application) (id : Uuid) : Answer := do
  let task ← app.find id
  let g := app.diagramOf (task.program.refresh app.library)
  let view := Json.obj [("warnings", app.findings g), ("workspace", g.toWorkspace.toJson)]
  return (.linked view [("program", Link.program id)], app)

def writeDiagram (app : Application) (stamp : Stamp) (id : Uuid) (name : Option String)
    (workspace : Workspace) : Answer := do
  let g := Graph.ofWorkspace .standard app.config.layout workspace
  let task ← app.findOrNew stamp id name
  let program := g.toProgram
  let saved := Json.obj [("program", program.graphicDocument), ("task", task.info.toJson),
    ("warnings", app.findings g)]
  return (.linked saved [("self", Link.diagram id)],
    { app with tasks := app.tasks.put { task with program } })

def openChat (app : Application) (stamp : Stamp) (name : Option String) : Answer :=
  let taskName := (nonblank name).getD ("chat task " ++ stamp.now.minuteText)
  let view := Json.obj [("id", .str stamp.fresh.text),
    ("program", Conversation.new.draft.nullableDocument)]
  .ok (.linked view [("turns", Link.turns stamp.fresh)],
    app.putChat stamp.fresh ⟨.new, taskName⟩)

/-- A turn that leaves its conversation open. -/
def continueChat (app : Application) (session : Uuid) (chat : PendingChat) : Reply × Application :=
  let view := Json.obj [("finished", .bool false),
    ("program", chat.conversation.draft.nullableDocument),
    ("turns", .int chat.conversation.turnCount)]
  (.linked view [], app.putChat session chat)

/-- A turn that ends its conversation with a program: the program is stored as a new task, its
references resolved. -/
def finishChat (app : Application) (stamp : Stamp) (session : Uuid) (chat : PendingChat)
    (program : Program) : Reply × Application :=
  let task := StoredTask.new stamp.fresh chat.taskName stamp.now
  let program := program.resolve app.library
  let warnings := match app.findings (app.diagramOf program) with
    | .arr [] => []
    | findings => [("warnings", findings)]
  let view := Json.obj ([("finished", .bool true), ("program", program.graphicDocument),
    ("task_id", .str stamp.fresh.text), ("turns", .int chat.conversation.turnCount)] ++ warnings)
  (.linked view [("task", Link.program stamp.fresh)],
    { app.eraseChat session with tasks := app.tasks.put { task with program } })

def takeTurn (app : Application) (stamp : Stamp) (session : Uuid) (turn : Turn) : Answer :=
  match app.chat? session with
  | none => .error (.notFound ("chat session " ++ session.text))
  | some chat =>
      match chat.conversation.apply turn with
      | .error e => .error (.chat session e)
      | .ok (.inProgress, conversation) =>
          .ok (app.continueChat session { chat with conversation })
      | .ok (.finished program, conversation) =>
          .ok (app.finishChat stamp session { chat with conversation } program)

/-- What the service makes of a request. -/
def answer (app : Application) (stamp : Stamp) : Request → Answer
  | .listTasks sharedOnly order limit => app.listTasks sharedOnly order limit
  | .deleteTask id => app.deleteTask id
  | .readProgram id form => app.readProgram id form
  | .writeProgram id name document => app.writeProgram stamp id name document
  | .readDiagram id => app.readDiagram id
  | .writeDiagram id name workspace => app.writeDiagram stamp id name workspace
  | .openChat name => app.openChat stamp name
  | .takeTurn session turn => app.takeTurn stamp session turn
  | .grammar => .ok (.linked Grammar.standard.toJson [("self", Link.grammar)], app)
  | .health =>
      .ok (.plain (.obj [("status", .str "ok"), ("version", .str version)]), app)

/-- What the service is after a request; a refused one changes nothing. -/
def after (app : Application) (stamp : Stamp) (request : Request) : Application :=
  match app.answer stamp request with
  | .ok (_, next) => next
  | .error _ => app

end Application

end TaskDiagram
