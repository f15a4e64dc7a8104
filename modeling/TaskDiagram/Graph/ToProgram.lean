import TaskDiagram.Graph.TopLevel
import TaskDiagram.Program.Basic

/-!
# Saving a diagram as a program

Of several steps of one kind in a branch the first is saved. Logic blocks inside a branch and
chains that do not count at the top level have no place in a program.
-/

namespace TaskDiagram.Graph

/-- The reference in a socket; blank when the socket is empty. -/
def readReference (g : Graph) (owner : BlockId) (socket : SocketName) : Reference :=
  match (g.child? owner socket).bind g.block? with
  | some b => ⟨b.textField? fieldName, b.intField? fieldId⟩
  | none => .blank

/-- The first step of a kind among some blocks. -/
def readStep (g : Graph) (branch : List BlockId) (step : StepKind) : Option Reference :=
  (branch.find? fun id => g.kind? id == some (.ofStep step)).map fun id =>
    g.readReference id (.ofEntity step.entity)

/-- The steps that some blocks stand for. -/
def readSteps (g : Graph) (branch : List BlockId) : Steps :=
  ⟨g.readStep branch .pick, g.readStep branch .processing, g.readStep branch .place⟩

/-- The event that guards a block. -/
def readEvent (g : Graph) (owner : BlockId) : Event :=
  match g.child? owner .when with
  | none => .blank
  | some child =>
      match g.kind? child with
      | some .sensorSignal => ⟨some .sensor, none⟩
      | some .humanFeedback => ⟨some .human, none⟩
      | some .findObject =>
          ⟨some .findObject,
            (g.child? child .object).map fun _ => g.readReference child .object⟩
      | _ => .blank

/-- The type of control a logic block stands for. -/
def controlType? : BlockKind → Option ControlType
  | .loop => some .loop
  | .repeated => some .repeated
  | .when => some .when
  | .whenOtherwise => some .whenOtherwise
  | _ => none

/-- The control a logic block stands for. -/
def readControl (g : Graph) (id : BlockId) : Option Control := do
  let b ← g.block? id
  let type ← controlType? b.kind
  pure {
    type := some type
    times := if b.kind == .repeated then b.intField? fieldTimes else none
    event :=
      if b.kind == .when || b.kind == .whenOtherwise then some (g.readEvent id) else none
    otherwise :=
      if b.kind == .whenOtherwise then some (g.readSteps (g.branch id .otherwise)) else none
    steps := g.readSteps (g.branch id .body) }

/-- The program a diagram stands for. -/
def toProgram (g : Graph) : Program :=
  let top := g.topLevel
  ⟨g.readSteps top.stepBlocks, top.controlBlocks.filterMap g.readControl⟩

end TaskDiagram.Graph
