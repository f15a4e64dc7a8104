import TaskDiagram.Moment
import TaskDiagram.Program.Document
import TaskDiagram.Store.Error
import TaskDiagram.Store.Nesting
import TaskDiagram.Uuid

/-!
# Stored tasks

A task is a named program. The store keeps one row a task, with the program as the text of its
document, so a program nested too deeply can be stored but not read again. The last write of a
task wins.
-/

namespace TaskDiagram

/-- What is known of a task apart from its program. -/
structure TaskInfo where
  id : Uuid
  name : String
  description : Option String
  /-- Whether other operators see the task. -/
  shared : Bool
  created : Moment
  updated : Moment
  deriving DecidableEq, Repr

structure StoredTask where
  info : TaskInfo
  program : Program
  deriving DecidableEq, Repr

/-- A new task with an empty program. -/
def StoredTask.new (id : Uuid) (name : String) (now : Moment) : StoredTask :=
  ⟨⟨id, name, none, false, now, now⟩, .empty⟩

/-- What is known of a task, as a document value. -/
def TaskInfo.toJson (t : TaskInfo) : Json :=
  .obj ([("created_at", .str t.created.text)] ++
    Json.optionalEntry "description" .str t.description ++
    [("id", .str t.id.text), ("name", .str t.name), ("shared", .bool t.shared),
      ("updated_at", .str t.updated.text)])

/-- A task as it is kept. -/
structure TaskRow where
  info : TaskInfo
  document : Json

namespace TaskRow

def ofStored (t : StoredTask) : TaskRow := ⟨t.info, t.program.graphicDocument⟩

/-- Reads the program back. -/
def load (row : TaskRow) : Except StorageError StoredTask :=
  if row.document.isReadable then
    match Program.ofDocument row.document with
    | .ok p => .ok ⟨row.info, p⟩
    | .error e => .error (.query ("invalid program document: invalid JSON: " ++ e.message))
  else
    .error (.query ("invalid program JSON: recursion limit exceeded at line 1 column " ++
      toString row.document.stopColumn))

end TaskRow

/-- Order of a list by last update. -/
inductive SortOrder where
  | ascending
  | descending
  deriving DecidableEq, Repr

/-- Whether one row stands before another. -/
def SortOrder.precedes (order : SortOrder) (a b : TaskRow) : Bool :=
  match order with
  | .ascending => a.info.updated.nanoseconds ≤ b.info.updated.nanoseconds
  | .descending => b.info.updated.nanoseconds ≤ a.info.updated.nanoseconds

/-- Which tasks to list. -/
structure TaskFilter where
  sharedOnly : Bool
  order : SortOrder
  /-- How many at most; a negative number sets no limit. -/
  limit : Option Int64
  deriving DecidableEq, Repr

/-- The rows of the store, one for each task. -/
structure TaskStore where
  rows : List TaskRow

namespace TaskStore

def empty : TaskStore := ⟨[]⟩

def row? (s : TaskStore) (id : Uuid) : Option TaskRow :=
  s.rows.find? (·.info.id = id)

/-- The task with an id, if there is one. -/
def get? (s : TaskStore) (id : Uuid) : Except StorageError (Option StoredTask) :=
  match s.row? id with
  | some row => row.load.map some
  | none => .ok none

/-- Puts a row in the place of the one with its id, whose time of creation it keeps, or behind all
others. -/
def putRow (row : TaskRow) : List TaskRow → List TaskRow
  | [] => [row]
  | old :: rest =>
      if old.info.id = row.info.id then
        { row with info := { row.info with created := old.info.created } } :: rest
      else old :: putRow row rest

def put (s : TaskStore) (t : StoredTask) : TaskStore := ⟨putRow (.ofStored t) s.rows⟩

/-- The store without the task with an id, if there is one. -/
def erase? (s : TaskStore) (id : Uuid) : Option TaskStore :=
  if (s.row? id).isSome then some ⟨s.rows.filter (·.info.id ≠ id)⟩ else none

/-- At most so many rows. -/
def cut (limit : Option Int64) (rows : List TaskRow) : List TaskRow :=
  match limit with
  | none => rows
  | some n => if n < 0 then rows else rows.take n.toInt.toNat

/-- The rows a list shows, in its order. -/
def selected (s : TaskStore) (filter : TaskFilter) : List TaskRow :=
  let rows := s.rows.filter fun row => !filter.sharedOnly || row.info.shared
  cut filter.limit (rows.mergeSort (filter.order.precedes))

/-- The tasks a list shows; fails where one of them cannot be read. -/
def list (s : TaskStore) (filter : TaskFilter) : Except StorageError (List StoredTask) :=
  (s.selected filter).mapM TaskRow.load

end TaskStore

end TaskDiagram
