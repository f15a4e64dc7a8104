import TaskDiagram.Program.Json

/-!
# The two forms of a program document

The stored form leaves out every unset leaf and every record left empty by that, except the records
of steps and of a searched object: those stand for blocks even when nothing in them is set. The
conversation form carries every leaf, unset ones as `null`.
-/

namespace TaskDiagram

namespace Reference

/-- The set leaves of a reference. -/
def setEntries (kind : LibraryKind) (r : Reference) : Entries :=
  Json.optionalEntry kind.name .str r.name ++ Json.optionalEntry (idKey kind) (.int ·.toInt) r.id

end Reference

/-- An entry for a record, unless nothing in it is set. -/
def nonemptyEntry (key : String) : Entries → Entries
  | [] => []
  | entries => [(key, .obj entries)]

namespace Event

def setEntries (e : Event) : Entries :=
  Json.optionalEntry "event_type" EventType.toJson e.type ++
    Json.optionalEntry "find_object" (fun r => .obj (r.setEntries .object)) e.findObject

end Event

namespace Steps

/-- An entry for each step that is there. -/
def setEntries (s : Steps) : Entries :=
  Json.optionalEntry "pick" (fun r => .obj (r.setEntries .object)) s.pick ++
    Json.optionalEntry "place" (fun r => .obj (r.setEntries .location)) s.place ++
    Json.optionalEntry "processing" (fun r => .obj (r.setEntries .action)) s.processing

end Steps

namespace Control

/-- The record of the first control, those behind it nested inside. -/
def chainEntries : List Control → Entries
  | [] => []
  | c :: rest =>
      nonemptyEntry "control" (chainEntries rest) ++
        Json.optionalEntry "control_type" ControlType.toJson c.type ++
        nonemptyEntry "event" ((c.event.map Event.setEntries).getD []) ++
        nonemptyEntry "otherwise" ((c.otherwise.map Steps.setEntries).getD []) ++
        c.steps.setEntries ++
        Json.optionalEntry "times" (.int ·.toInt) c.times

/-- The control with every record present. -/
def filled (c : Control) : Control :=
  let event := c.event.getD .blank
  { c with
    event := some { event with findObject := some (event.findObject.getD .blank) }
    otherwise := some (fill (c.otherwise.getD .empty))
    steps := fill c.steps }
where
  /-- The triple with every step present. -/
  fill (s : Steps) : Steps :=
    ⟨some (s.pick.getD .blank), some (s.processing.getD .blank), some (s.place.getD .blank)⟩

end Control

namespace Program

/-- The stored form of a program. -/
def graphicDocument (p : Program) : Json :=
  envelope (.obj (nonemptyEntry "control" (Control.chainEntries p.controls) ++ p.steps.setEntries))

/-- The program with every record present and at least one control. -/
def filled (p : Program) : Program where
  steps := Control.filled.fill p.steps
  controls := match p.controls with
    | [] => [Control.empty.filled]
    | controls => controls.map Control.filled

/-- The conversation form of a program. -/
def nullableDocument (p : Program) : Json := envelope p.filled.toJson

/-- Reads a document value: a record with a program in it, a program by itself, or nothing. -/
def ofDocument (value : Json) : Except DecodeError Program :=
  if value.hasKey "program" then decodeEnvelope value
  else match value with
    | .null => .ok .empty
    | value => decode value

end Program

end TaskDiagram
