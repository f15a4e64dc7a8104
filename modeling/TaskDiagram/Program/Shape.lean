import TaskDiagram.Json.Shape
import TaskDiagram.Program.Json

/-!
# Shapes of programs

What a reader of text looks for while it reads a program: the keys of `Program.decode`, under all
their names.
-/

namespace TaskDiagram

open Json (Shape)

/-- The shape of a field that may be unset. -/
def optionalField (keys : List String) (shape : Shape) : List String × Shape :=
  (keys, .nullable shape)

def Reference.shape (kind : LibraryKind) : Shape :=
  .record [optionalField [kind.name] .text, optionalField [Reference.idKey kind] .int64]

/-- A searched object is read to its end before it is judged. -/
def Event.shape : Shape :=
  .record [optionalField ["event_type"] .text,
    optionalField ["find_object"] (.whole fun value => (Event.Target.decode value).toBool),
    optionalField ["find_object_id"] .int64]

namespace Steps

/-- The three steps of a record in which `longer` precedes their names as an alternative. -/
def shapes (longer : Option String) : List (List String × Shape) :=
  StepKind.all.map fun kind =>
    optionalField (kind.name :: longer.toList.map (· ++ kind.name)) (Reference.shape kind.entity)

def shape : Shape := .record (shapes (some "otherwise_"))

end Steps

/-- A control and up to `depth` of those behind it. -/
def Control.shape : (depth : Nat) → Shape
  | 0 => .record []
  | depth + 1 =>
      .record ([optionalField ["control_type"] .text, optionalField ["times"] .int64,
          optionalField ["event"] Event.shape, optionalField ["otherwise"] Steps.shape] ++
        Steps.shapes (some "control_") ++ [optionalField ["control"] (Control.shape depth)])

namespace Program

/-- No text nests controls deeper than containers may stand. -/
def shape : Shape :=
  .record (Steps.shapes none ++ [optionalField ["control"] (Control.shape Json.maxDepth)])

/-- The record that holds nothing but a program. -/
def envelopeShape : Shape := .record [(["program"], shape)]

end Program

end TaskDiagram
