import TaskDiagram.Program.Basic

/-!
# Kinds of blocks

The closed set of blocks a diagram is made of. Steps act, logic blocks hold steps, events guard
logic blocks, and library blocks name what the others refer to.
-/

namespace TaskDiagram

inductive BlockKind where
  | pick
  | place
  | processing
  | loop
  | repeated
  | when
  | whenOtherwise
  | findObject
  | sensorSignal
  | humanFeedback
  | objectRef
  | locationRef
  | actionRef
  deriving DecidableEq, Repr, Inhabited

/-- Groups of kinds. -/
inductive BlockCategory where
  | step
  | logic
  | event
  | library
  deriving DecidableEq, Repr

def BlockCategory.name : BlockCategory → String
  | step => "step"
  | logic => "logic"
  | event => "event"
  | library => "library"

namespace BlockKind

/-- All kinds in their order. -/
def all : List BlockKind :=
  [.pick, .place, .processing, .loop, .repeated, .when, .whenOtherwise, .findObject,
    .sensorSignal, .humanFeedback, .objectRef, .locationRef, .actionRef]

def name : BlockKind → String
  | pick => "pick"
  | place => "place"
  | processing => "processing"
  | loop => "loop"
  | repeated => "repeat"
  | when => "when"
  | whenOtherwise => "when_otherwise"
  | findObject => "find_object"
  | sensorSignal => "sensor_signal"
  | humanFeedback => "human_feedback"
  | objectRef => "object_ref"
  | locationRef => "location_ref"
  | actionRef => "action_ref"

/-- Name that older diagrams use. -/
def formerName : BlockKind → String
  | objectRef => "object_block"
  | locationRef => "location_block"
  | actionRef => "action_block"
  | kind => kind.name ++ "_block"

def category : BlockKind → BlockCategory
  | pick | place | processing => .step
  | loop | repeated | when | whenOtherwise => .logic
  | findObject | sensorSignal | humanFeedback => .event
  | objectRef | locationRef | actionRef => .library

/-- The step a block performs. -/
def step? : BlockKind → Option StepKind
  | pick => some .pick
  | processing => some .processing
  | place => some .place
  | _ => none

/-- The block that performs a step. -/
def ofStep : StepKind → BlockKind
  | .pick => pick
  | .processing => processing
  | .place => place

def isLogic (kind : BlockKind) : Bool := kind.category == .logic

/-- What a library block refers to. -/
def entity? : BlockKind → Option LibraryKind
  | objectRef => some .object
  | locationRef => some .location
  | actionRef => some .action
  | _ => none

/-- The block that refers to a library item. -/
def ofEntity : LibraryKind → BlockKind
  | .object => objectRef
  | .location => locationRef
  | .action => actionRef

def toJson (kind : BlockKind) : Json := .str kind.name

/-- Every name a kind is read under, the two of a kind in alphabetical order. -/
def table : List (String × BlockKind) :=
  all.flatMap fun kind =>
    if kind.formerName < kind.name then [(kind.formerName, kind), (kind.name, kind)]
    else [(kind.name, kind), (kind.formerName, kind)]

def decode : Decoder BlockKind := Decode.variant table

end BlockKind

end TaskDiagram
