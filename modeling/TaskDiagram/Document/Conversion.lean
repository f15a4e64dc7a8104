import TaskDiagram.Document.Reader
import TaskDiagram.Graph.Dot
import TaskDiagram.Graph.OfWorkspace
import TaskDiagram.Graph.ToProgram
import TaskDiagram.Graph.ToWorkspace
import TaskDiagram.Graph.Validation

/-!
# Converting between the forms of a task

Whatever form a task comes in, it is loaded into a diagram for its findings. A program that is
asked for as a program stays as it came; everything else is written from the diagram.
-/

namespace TaskDiagram

/-- The forms a task can be converted to. -/
inductive Target where
  | graph
  | program
  | nullable
  | dot
  deriving DecidableEq, Repr

namespace Target

def table : List (String × Target) :=
  [("graph", .graph), ("program", .program), ("nullable", .nullable), ("dot", .dot)]

end Target

namespace Input

def toGraph (grammar : Grammar) (layout : Layout) : Input → Graph
  | program p => .ofProgram grammar layout p
  | workspace w => .ofWorkspace grammar layout w

/-- The program an input stands for, given its diagram. -/
def toProgram (g : Graph) : Input → Program
  | program p => p
  | workspace _ => g.toProgram

/-- The input in another form, and what was found on the way. -/
def convert (grammar : Grammar) (layout : Layout) (target : Target) (input : Input) :
    Json × List Warning :=
  let g := input.toGraph grammar layout
  let value := match target with
    | .graph => g.toWorkspace.toJson
    | .program => (input.toProgram g).graphicDocument
    | .nullable => (input.toProgram g).nullableDocument
    | .dot => .str g.dot
  (value, g.validate none)

end Input

end TaskDiagram
