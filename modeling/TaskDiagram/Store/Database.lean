import TaskDiagram.Library.Upkeep
import TaskDiagram.Store.Task

/-!
# What is kept from run to run

The tasks and the library, and the document they are kept as.
-/

namespace TaskDiagram

structure Database where
  tasks : TaskStore
  library : Catalog

namespace Database

def empty : Database := ⟨.empty, .empty⟩

def rowToJson (row : TaskRow) : Json :=
  .obj [("created", .int row.info.created.nanoseconds),
    ("description", .ofOption .str row.info.description),
    ("document", .str row.document.compact),
    ("id", .str row.info.id.text),
    ("name", .str row.info.name),
    ("shared", .bool row.info.shared),
    ("updated", .int row.info.updated.nanoseconds)]

/-- The database as a document value. The document of a task is a text in it, for it may be nested
too deeply to be a part. -/
def toJson (db : Database) : Json :=
  .obj [("library", .obj (LibraryKind.all.map fun kind =>
      (kind.name, .arr ((db.library.items kind).map LibraryItem.toJson)))),
    ("tasks", .arr (db.tasks.rows.map rowToJson))]

def decodeId : Decoder Uuid := fun value => do
  let s ← Decode.text value
  match Uuid.ofText? s with
  | some id => .ok id
  | none => .error (.invalidValue (.text s) "an id")

def decodeMoment : Decoder Moment := fun value => .mk <$> Decode.natWithin 64 "u64" value

/-- A document within a text, however deep. -/
def decodeDocument : Decoder Json := fun value => do
  let s ← Decode.text value
  match Json.readWithin s.length s with
  | .ok document => .ok document
  | .error _ => .error (.invalidValue (.text s) "a document")

def decodeRow : Decoder TaskRow :=
  Fields.read "TaskRow" <|
    (fun created description document id name shared updated =>
      ⟨⟨id, name, description, shared, created, updated⟩, document⟩) <$>
      .need "created" decodeMoment <*> .optional "description" Decode.text <*>
      .need "document" decodeDocument <*> .need "id" decodeId <*> .need "name" Decode.text <*>
      .need "shared" Decode.bool <*> .need "updated" decodeMoment

def decodeItems : Decoder (List LibraryItem) := Decode.list LibraryItem.decode

def decodeLibrary : Decoder Catalog :=
  Fields.read "Library" <|
    Catalog.mk <$> .need "object" decodeItems <*> .need "location" decodeItems
      <*> .need "action" decodeItems

def decode : Decoder Database :=
  Fields.read "Database" <|
    (fun library rows => ⟨⟨rows⟩, library⟩) <$> .need "library" decodeLibrary
      <*> .need "tasks" (Decode.list decodeRow)

end Database

end TaskDiagram
