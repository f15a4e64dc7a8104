import TaskDiagram.Command.Invocation
import TaskDiagram.Command.Output
import TaskDiagram.Command.Report
import TaskDiagram.Document.Conversion
import TaskDiagram.Grammar.Standard
import TaskDiagram.Library.Repair
import TaskDiagram.Program.Merge
import TaskDiagram.Program.Schema
import TaskDiagram.Service.Request
import TaskDiagram.Store.Database

/-!
# Carrying out commands

A command sees the files it names, the settings and the database, and leaves output and a database
behind. A command that fails leaves the database as it was.
-/

namespace TaskDiagram

/-- What a command finds around it. -/
structure Surroundings where
  file : String → Except FileError String
  config : Config
  stamp : Stamp

namespace Surroundings

def read (s : Surroundings) (path : String) : Except CommandError String :=
  (s.file path).mapError (.read path)

/-- The program or workspace in a file. -/
def input (s : Surroundings) (path : String) : Except CommandError Input := do
  let text ← s.read path
  (Input.read text).mapError (.parse path)

/-- The program in a file. -/
def program (s : Surroundings) (path : String) : Except CommandError Program := do
  let text ← s.read path
  (Document.readProgram text).mapError (.parse path)

end Surroundings

/-- Name of the file a path leads to, without its extension. -/
def fileStem? (path : String) : Option String := do
  let pieces := (Text.splitOnChar '/' path).filter fun s => s != "" && s != "."
  let name ← pieces.getLast?
  if name == ".." then none
  else
    let cs := name.toList
    let front := (cs.reverse.dropWhile (· != '.')).drop 1
    some (if front.isEmpty then name else String.ofList front.reverse)

namespace Invocation

/-- A result for people or for programs, as is wanted. -/
def render (inv : Invocation) (value : Json) (text : String) : String :=
  if inv.json then Report.document value else text

/-- A remark that is left out where quiet is wanted. -/
def remark (inv : Invocation) (value : String) (text : String) : Output :=
  .printed (if inv.json then value else if inv.quiet then "" else text)

/-- Findings that accompany a result. -/
def aside (inv : Invocation) (warnings : List Warning) : String :=
  if inv.quiet then "" else Report.warningLines warnings

def convert (inv : Invocation) (s : Surroundings) (file : String) (target : Target) :
    Except CommandError Output := do
  let input ← s.input file
  let (value, warnings) := input.convert .standard .standard target
  let out := match value with
    | .str text => Report.line text
    | value => Report.document value
  return ⟨0, out, inv.aside warnings⟩

def validate (inv : Invocation) (s : Surroundings) (db : Database) (file : String) :
    Except CommandError Output := do
  let input ← s.input file
  let warnings := (input.toGraph .standard s.config.layout).validate (some db.library)
  return .printed (inv.render (.arr (warnings.map Warning.toJson)) (Report.warnings warnings))

def merge (s : Surroundings) (previous incoming : String) : Except CommandError Output := do
  let previous ← s.program previous
  let incoming ← s.program incoming
  return .printed (Report.document (previous.merge incoming).nullableDocument)

def listTasks (inv : Invocation) (db : Database) (sharedOnly : Bool) (limit : Option Int64) :
    Except CommandError Output := do
  let tasks ← (db.tasks.list ⟨sharedOnly, .descending, limit⟩).mapError .storage
  let infos := tasks.map (·.info)
  return .printed (inv.render (.arr (infos.map Report.taskToJson))
    (if infos.isEmpty then Report.noTasks else Report.tasks infos))

def showTask (db : Database) (id : Uuid) (nullable refresh : Bool) :
    Except CommandError Output := do
  match ← (db.tasks.get? id).mapError .storage with
  | none => throw (.noTask id)
  | some task =>
      let program := if refresh then task.program.refresh db.library else task.program
      return .printed (Report.document
        (if nullable then program.nullableDocument else program.graphicDocument))

/-- The task a file is saved as. -/
def taskToSave (s : Surroundings) (db : Database) (file : String) (options : SaveOptions)
    (program : Program) : Except CommandError StoredTask := do
  let stored ← match options.id with
    | some id => (db.tasks.get? id).mapError .storage
    | none => pure none
  let task := stored.getD
    (.new (options.id.getD s.stamp.fresh) ((fileStem? file).getD "untitled") s.stamp.now)
  return { program, info := { task.info with
    name := options.name.getD task.info.name
    description := options.description.or task.info.description
    shared := task.info.shared || options.shared
    updated := s.stamp.now } }

def saveTask (inv : Invocation) (s : Surroundings) (db : Database) (file : String)
    (options : SaveOptions) : Except CommandError (Output × Database) := do
  let input ← s.input file
  let g := input.toGraph .standard s.config.layout
  let warnings := g.validate (some db.library)
  let program := input.toProgram g
  let program := if options.resolve then program.resolve db.library else program
  let task ← taskToSave s db file options program
  let value := Json.obj [("id", .str task.info.id.text), ("name", .str task.info.name),
    ("warnings", .arr (warnings.map Warning.toJson))]
  let output := inv.remark (Report.document value)
    (Report.done ("Saved '" ++ task.info.name ++ "' as " ++ task.info.id.text))
  return (if inv.json then output else { output with err := inv.aside warnings },
    { db with tasks := db.tasks.put task })

def deleteTask (inv : Invocation) (db : Database) (id : Uuid) :
    Except CommandError (Output × Database) :=
  match db.tasks.erase? id with
  | some tasks =>
      .ok (inv.remark (Report.line (Json.obj [("deleted", .str id.text)]).compact)
        (Report.done ("Deleted task " ++ id.text)), { db with tasks })
  | none => .error (.noTask id)

def listItems (inv : Invocation) (db : Database) (kind : LibraryKind) : Output :=
  let items := db.library.items kind
  .printed (inv.render (.arr (items.map LibraryItem.toJson))
    (if items.isEmpty then Report.noItems kind else Report.items items))

/-- How a remark refers to an item. -/
def itemText (kind : LibraryKind) (id : Int64) : String := kind.name ++ " " ++ toString id.toInt

def addItem (inv : Invocation) (db : Database) (kind : LibraryKind) (item : LibraryItem) :
    Output × Database :=
  (inv.remark (Report.document item.toJson)
    (Report.done ("Stored " ++ itemText kind item.id ++ " '" ++ item.name ++ "'")),
    { db with library := db.library.put kind item })

def removeItem (inv : Invocation) (db : Database) (kind : LibraryKind) (id : Int64) :
    Except CommandError (Output × Database) :=
  match db.library.erase? kind id with
  | some library =>
      let value := Json.obj
        [("deleted", .obj [("id", .int id.toInt), ("kind", .str kind.name)])]
      .ok (inv.remark (Report.line value.compact)
        (Report.done ("Removed " ++ itemText kind id)), { db with library })
  | none => .error (.noItem kind id)

def resolveName (inv : Invocation) (db : Database) (kind : LibraryKind) (name : String) : Output :=
  let r := db.library.resolve kind name
  let value := Json.obj [("id", .ofOption (.int ·.toInt) r.id),
    ("keywords", .ofOption .ofStrings r.keywords), ("name", .str r.name)]
  let text := match r.id with
    | some id => Report.done ("'" ++ name ++ "' resolves to " ++ itemText kind id ++ " '" ++
        r.name ++ "'")
    | none => Report.note "!" (kind.label ++ " not defined: '" ++ r.name ++ "'")
  .printed (inv.render value text)

def showSchema : SchemaKind → Output
  | .turn => .printed (Report.document Schema.turn)
  | .program => .printed (Report.document Schema.program)

/-- What a command writes, and the database it leaves behind. -/
def perform (inv : Invocation) (s : Surroundings) (db : Database) :
    Except CommandError (Output × Database) :=
  match inv.command with
  | .convert file target => (inv.convert s file target).map (·, db)
  | .validate file => (inv.validate s db file).map (·, db)
  | .merge previous incoming => (merge s previous incoming).map (·, db)
  | .listTasks sharedOnly limit => (inv.listTasks db sharedOnly limit).map (·, db)
  | .showTask id nullable refresh => (showTask db id nullable refresh).map (·, db)
  | .saveTask file options => inv.saveTask s db file options
  | .deleteTask id => inv.deleteTask db id
  | .listItems kind => .ok (inv.listItems db kind, db)
  | .addItem kind item => .ok (inv.addItem db kind item)
  | .removeItem kind id => inv.removeItem db kind id
  | .resolveName kind name => .ok (inv.resolveName db kind name, db)
  | .showGrammar =>
      .ok (.printed (inv.render Grammar.standard.toJson (Report.grammar .standard)), db)
  | .showSchema which => .ok (showSchema which, db)

/-- `perform`, with a failure written out. -/
def run (inv : Invocation) (s : Surroundings) (db : Database) : Output × Database :=
  match inv.perform s db with
  | .ok result => result
  | .error e => (.ofError e, db)

end Invocation

/-- Name of the program on the command line. -/
def programName : String := "btask"

/-- What a run writes that has nothing to carry out. -/
def Invocation.Refusal.output : Refusal → Output
  | .misuse => .misuse "error: the arguments make no sense\n"
  | .version command => .printed (command ++ " " ++ TaskDiagram.version ++ "\n")

/-- A run of the program: what `arguments` ask for is carried out in the surroundings that were
found, unless the directory for the database cannot be had. -/
def runProgram (arguments : List String) (found : Except CommandError Surroundings)
    (db : Database) : Output × Database :=
  match Invocation.ofArguments programName arguments, found with
  | .error refusal, _ => (refusal.output, db)
  | .ok _, .error e => (.ofError e, db)
  | .ok inv, .ok s => inv.run s db

end TaskDiagram
