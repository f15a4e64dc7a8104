import TaskDiagram.Grammar.Description
import TaskDiagram.Json.Printer
import TaskDiagram.Store.Task
import TaskDiagram.Text.Table
import TaskDiagram.Warning

/-!
# What commands print

Results are printed for people or as documents. What is meant for people is indented by two
blanks, and a table or a lone remark has an empty line on either side.
-/

namespace TaskDiagram.Report

def line (s : String) : String := s ++ "\n"

/-- A document, indented. -/
def document (value : Json) : String := line value.indented

def note (mark text : String) : String := line ("  " ++ mark ++ " " ++ text)

/-- A remark that something was done. -/
def done (text : String) : String := note "✓" text

/-- Something between empty lines. -/
def apart (text : String) : String := "\n" ++ text ++ "\n"

def table (head : List String) (rows : List (List String)) : String :=
  apart (line (Text.drawTable head rows))

def noItems (kind : LibraryKind) : String :=
  apart (note "i" ("No " ++ kind.name ++ " items. Add one with: btask library add " ++ kind.name ++
    " <id> <name>"))

def items (list : List LibraryItem) : String :=
  table ["Id", "Name", "Keywords"]
    (list.map fun item => [toString item.id.toInt, item.name, item.keywordText])

def noTasks : String :=
  apart (note "i" "No tasks found. Store one with: btask task save <file>")

def tasks (list : List TaskInfo) : String :=
  table ["Id", "Name", "Shared", "Description", "Updated"]
    (list.map fun t => [t.id.text, t.name, if t.shared then "● yes" else "○ no",
      t.description.getD "", t.updated.minuteText])

/-- A task in a list, as a document value. -/
def taskToJson (t : TaskInfo) : Json :=
  .obj [("description", .ofOption .str t.description), ("id", .str t.id.text),
    ("name", .str t.name), ("shared", .bool t.shared), ("updated_at", .str t.updated.text)]

/-- Findings one a line, as they accompany a result. -/
def warningLines (warnings : List Warning) : String :=
  String.join (warnings.map fun w => note "!" w.display)

def warnings (list : List Warning) : String :=
  if list.isEmpty then apart (done "No warnings")
  else
    table ["Block", "Warning"] (list.map fun w =>
      [(w.block.map fun id => "#" ++ toString id).getD "-", w.message]) ++
      line ("  " ++ toString list.length ++ " warning(s); warnings never block saving") ++ "\n"

/-- The sockets of a kind of block, one a line; a star marks those that must be filled. -/
def sockets (spec : BlockSpec) : String :=
  "\n".intercalate (spec.sockets.map fun s =>
    s.name.name ++ (if s.required then "*" else "") ++ " <- " ++
      " | ".intercalate (s.accepts.map BlockKind.name))

/-- The fields of a kind of block, one a line. -/
def fields (spec : BlockSpec) : String :=
  "\n".intercalate (spec.fields.map fun f =>
    f.name ++ ": " ++ f.type.label ++
      ((f.default.map fun value => " = " ++ value.toJson.compact).getD ""))

def grammar (g : Grammar) : String :=
  "\n" ++ line (Text.drawTable ["Block", "Category", "Root", "Inputs", "Fields"]
    (g.specs.map fun (kind, spec) => [kind.name, kind.category.name,
      if spec.root then "yes" else "", sockets spec, fields spec])) ++
    line "  * required input" ++ "\n"

end TaskDiagram.Report
