import TaskDiagram.Library.Item
import TaskDiagram.Text.Blank

/-!
# Task programs

A program picks something up, does something with it and puts it down, and may repeat or guard
further such steps in a chain of controls. Every leaf may be unset, and a record may be present
without a set leaf in it: it then stands for a step whose reference is still to be chosen.
-/

namespace TaskDiagram

/-- What a control does with the steps it holds. A type this library does not know keeps its
text. -/
inductive ControlType where
  | repeated
  | loop
  | when
  | whenOtherwise
  | other (text : String)
  deriving DecidableEq, Repr

namespace ControlType

def text : ControlType → String
  | repeated => "REPEAT"
  | loop => "LOOP"
  | when => "WHEN"
  | whenOtherwise => "WHEN_OTHERWISE"
  | other text => text

/-- Reads a type in any case; blanks around it do not matter. -/
def ofText (s : String) : ControlType :=
  match Text.upperAscii (Text.trim s) with
  | "REPEAT" => repeated
  | "LOOP" => loop
  | "WHEN" => when
  | "WHEN_OTHERWISE" => whenOtherwise
  | "WHENOTHERWISE" => whenOtherwise
  | _ => other s

def isKnown : ControlType → Bool
  | other _ => false
  | _ => true

end ControlType

/-- What a conditional control waits for. -/
inductive EventType where
  | sensor
  | human
  | findObject
  | other (text : String)
  deriving DecidableEq, Repr

namespace EventType

def text : EventType → String
  | sensor => "SENSOR"
  | human => "HUMAN"
  | findObject => "FIND_OBJECT"
  | other text => text

/-- Reads a type in any case and under its short and long names. -/
def ofText (s : String) : EventType :=
  match Text.upperAscii (Text.trim s) with
  | "SENSOR" => sensor
  | "SENSOR_SIGNAL" => sensor
  | "HUMAN" => human
  | "HUMAN_FEEDBACK" => human
  | "FIND_OBJECT" => findObject
  | "FIND" => findObject
  | _ => other s

def isKnown : EventType → Bool
  | other _ => false
  | _ => true

end EventType

/-- A reference to a library item by name, by id, or by both. -/
structure Reference where
  name : Option String
  id : Option Int64
  deriving DecidableEq, Repr, Inhabited

namespace Reference

/-- The reference with nothing set. -/
def blank : Reference := ⟨none, none⟩

def isBlank (r : Reference) : Bool := r.name.isNone && r.id.isNone

end Reference

/-- The guard of a conditional control. -/
structure Event where
  type : Option EventType
  findObject : Option Reference
  deriving DecidableEq, Repr, Inhabited

namespace Event

/-- The event with nothing set. -/
def blank : Event := ⟨none, none⟩

end Event

/-- The three kinds of steps. -/
inductive StepKind where
  | pick
  | processing
  | place
  deriving DecidableEq, Repr, Inhabited

namespace StepKind

def all : List StepKind := [.pick, .processing, .place]

def name : StepKind → String
  | pick => "pick"
  | processing => "processing"
  | place => "place"

/-- What a step of this kind refers to. -/
def entity : StepKind → LibraryKind
  | pick => .object
  | processing => .action
  | place => .location

def toJson (step : StepKind) : Json := .str step.name

def decode : Decoder StepKind := Decode.variant (all.map fun step => (step.name, step))

end StepKind

/-- At most one step of each kind. -/
structure Steps where
  pick : Option Reference
  processing : Option Reference
  place : Option Reference
  deriving DecidableEq, Repr, Inhabited

namespace Steps

def empty : Steps := ⟨none, none, none⟩

/-- All three steps, with nothing set. -/
def blank : Steps := ⟨some .blank, some .blank, some .blank⟩

def isEmpty (s : Steps) : Bool := s.pick.isNone && s.processing.isNone && s.place.isNone

def get (s : Steps) : StepKind → Option Reference
  | .pick => s.pick
  | .processing => s.processing
  | .place => s.place

/-- The steps in the order in which they are carried out. -/
def toList (s : Steps) : List (StepKind × Reference) :=
  StepKind.all.filterMap fun kind => (s.get kind).map (kind, ·)

/-- One function on each reference that is there. -/
def map (f : LibraryKind → Reference → Reference) (s : Steps) : Steps :=
  ⟨s.pick.map (f .object), s.processing.map (f .action), s.place.map (f .location)⟩

end Steps

/-- One control: its steps, and what they depend on. -/
structure Control where
  type : Option ControlType
  times : Option Int64
  event : Option Event
  otherwise : Option Steps
  steps : Steps
  deriving DecidableEq, Repr, Inhabited

namespace Control

/-- The control with nothing set. -/
def empty : Control := ⟨none, none, none, none, .empty⟩

end Control

/-- A task program: steps, then a chain of controls in sequence. -/
structure Program where
  steps : Steps
  controls : List Control
  deriving DecidableEq, Repr, Inhabited

namespace Program

def empty : Program := ⟨.empty, []⟩

def isEmpty (p : Program) : Bool := p.steps.isEmpty && p.controls.isEmpty

/-- What a conversation starts from: every record present, every leaf unset. -/
def placeholder : Program where
  steps := .blank
  controls := [{
    type := none
    times := none
    event := some ⟨none, some .blank⟩
    otherwise := some .blank
    steps := .blank }]

end Program

end TaskDiagram
