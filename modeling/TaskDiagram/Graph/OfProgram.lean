import TaskDiagram.Graph.Edit
import TaskDiagram.Program.Basic

/-!
# Loading a program into a diagram

Steps become chains of blocks, controls logic blocks with their steps plugged in. Loading always
succeeds: what the grammar cannot hold is left detached or left out, and a finding is recorded at
the place.
-/

namespace TaskDiagram

/-- Building a diagram step by step. -/
abbrev Build := StateM Graph

namespace Build

def insert (kind : BlockKind) : Build BlockId := fun g => (g.nextId, g.insert kind)

def pin (w : Warning) : Build Unit := fun g => ((), g.pin w)

/-- Links two blocks; where the grammar refuses, the child stays detached and is reported. -/
def link (parent : BlockId) (socket : SocketName) (child : BlockId) : Build Unit := fun g =>
  match g.connect parent socket child with
  | .ok linked => ((), linked)
  | .error _ =>
      match g.kind? parent, g.kind? child with
      | some p, some c => ((), g.pin (.about child (.rejectedLink p socket c)))
      | _, _ => ((), g)

/-- Why a field was dropped, as a finding tells it. -/
def dropReason : GraphError → String
  | .invalidField _ cause => cause.message
  | error => error.message

/-- Sets a field; where the grammar refuses, that is reported. -/
def set (id : BlockId) (name : String) (value : FieldValue) : Build Unit := fun g =>
  match g.setField id name value with
  | .ok changed => ((), changed)
  | .error error => ((), g.pin (.about id (.invalidField name (dropReason error))))

/-- Removes a field. -/
def clear (id : BlockId) (name : String) : Build Unit := fun g =>
  match g.clearField id name with
  | .ok (_, changed) => ((), changed)
  | .error _ => ((), g)

/-- A library block for a reference, unless it is blank. -/
def reference (kind : LibraryKind) (r : Reference) : Build (Option BlockId) := do
  if r.isBlank then return none
  let id ← insert (.ofEntity kind)
  if let some name := r.name then set id fieldName (.text name)
  if let some item := r.id then set id fieldId (.int item)
  return some id

/-- A block with a reference plugged in. -/
def withReference (kind : BlockKind) (entity : LibraryKind) (r : Reference) : Build BlockId := do
  let id ← insert kind
  if let some item ← reference entity r then link id (.ofEntity entity) item
  return id

def step (kind : StepKind) (r : Reference) : Build BlockId :=
  withReference (.ofStep kind) kind.entity r

/-- Links each block to the one behind it. -/
def linkChain : List BlockId → Build Unit
  | first :: second :: rest => do
      link first .next second
      linkChain (second :: rest)
  | _ => pure ()

/-- The blocks of the given steps, one behind the other. -/
def steps (s : Steps) : Build (List BlockId) := do
  let chain ← s.toList.mapM fun (kind, r) => step kind r
  linkChain chain
  return chain

/-- The given steps in a socket. -/
def branch (owner : BlockId) (socket : SocketName) (s : Steps) : Build Unit := do
  match ← steps s with
  | head :: _ => link owner socket head
  | [] => pure ()

/-- The count of a repetition, moved into the bounds of its field. -/
def repeatCount (id : BlockId) (times : Option Int64) : Build Unit := do
  match times with
  | none => clear id fieldTimes
  | some times =>
      let spec := (← get).grammar.field? .repeated fieldTimes
      let clamped := (spec.bind (·.clamp times)).getD times
      if clamped ≠ times then pin (.about id (.fieldClamped fieldTimes times clamped))
      set id fieldTimes (.int clamped)

/-- The event that guards a block. -/
def event (owner : BlockId) (e : Event) : Build Unit := do
  match e.type with
  | none => pure ()
  | some (.other value) => pin (.about owner (.unknownEventType value))
  | some .sensor => link owner .when (← insert .sensorSignal)
  | some .human => link owner .when (← insert .humanFeedback)
  | some .findObject =>
      link owner .when (← withReference .findObject .object (e.findObject.getD .blank))

end Build

namespace Reference

/-- No reference, or one with nothing set. -/
def isUnset (r : Option Reference) : Bool := (r.map isBlank).getD true

end Reference

/-- Whether no leaf of the steps is set. -/
def Steps.isUnset (s : Steps) : Bool :=
  Reference.isUnset s.pick && Reference.isUnset s.processing && Reference.isUnset s.place

/-- Whether no leaf of the event is set. -/
def Event.isUnset (e : Event) : Bool := e.type.isNone && Reference.isUnset e.findObject

/-- Whether no leaf of a control is set, its type aside. -/
def Control.isUnset (c : Control) : Bool :=
  c.times.isNone && (c.event.map Event.isUnset).getD true &&
    (c.otherwise.map Steps.isUnset).getD true && c.steps.isUnset

namespace Build

/-- The logic block a type of control stands for. -/
def logicKind? : ControlType → Option BlockKind
  | .loop => some .loop
  | .repeated => some .repeated
  | .when => some .when
  | .whenOtherwise => some .whenOtherwise
  | .other _ => none

/-- The steps of a control of unknown type, as a chain of its own. -/
def bareChain (value : String) (c : Control) : Build Unit := do
  let chain ← steps c.steps
  pin ⟨chain.head?, .unknownControlType value⟩

/-- What is plugged into a logic block. -/
def fillLogic (id : BlockId) (kind : BlockKind) (c : Control) : Build Unit := do
  match kind with
  | .repeated => repeatCount id c.times
  | .when | .whenOtherwise =>
      match c.event with
      | some e => event id e
      | none => pure ()
  | _ => pure ()
  branch id .body c.steps
  if kind == .whenOtherwise then
    match c.otherwise with
    | some otherwise => branch id .otherwise otherwise
    | none => pure ()

/-- Links a logic block behind the one before it; the first one goes behind the last step where
the grammar lets it, and otherwise starts a chain of its own. -/
def follow (previous tail : Option BlockId) (id : BlockId) (kind : BlockKind) : Build Unit := do
  match previous, tail with
  | some previous, _ => link previous .next id
  | none, some tail =>
      let g ← get
      match g.kind? tail with
      | some before => if g.grammar.accepts before .next kind then link tail .next id
      | none => pure ()
  | none, none => pure ()

/-- The controls one behind the other, after the last step `tail`. -/
def controls (tail : Option BlockId) : (previous : Option BlockId) → List Control → Build Unit
  | _, [] => pure ()
  | previous, c :: rest => do
      match c.type with
      | none =>
          if !c.isUnset then bareChain "null" c
          controls tail previous rest
      | some type =>
          match logicKind? type with
          | none =>
              bareChain type.text c
              controls tail previous rest
          | some kind =>
              let id ← insert kind
              fillLogic id kind c
              follow previous tail id kind
              controls tail (some id) rest

def program (p : Program) : Build Unit := do
  let chain ← steps p.steps
  controls chain.getLast? none p.controls

end Build

namespace Graph

/-- Puts the roots of a list below one another, beginning with the row `index`. -/
def placeRoots (layout : Layout) : (index : Nat) → List BlockId → Graph → Graph
  | _, [], g => g
  | index, root :: rest, g =>
      placeRoots layout (index + 1) rest
        (g.modify root fun b => { b with position := some (layout.position index) })

/-- The diagram of a program. -/
def ofProgram (grammar : Grammar) (layout : Layout) (p : Program) : Graph :=
  let g := (Build.program p (empty grammar)).2
  placeRoots layout 0 g.roots g

end Graph

end TaskDiagram
