import TaskDiagram.Library.Repair
import TaskDiagram.Proofs.Program.Merging

/-! # References of programs

A reference stands in a step or is what an event waits for, and its place says what kind of thing it
refers to. A change of all references, each by the kind of its place, leaves everything else in a
program as it was.
-/

namespace TaskDiagram

/-- The places of a program in which a reference can stand. -/
inductive ReferencePlace where
  | step (kind : StepKind)
  | controlStep (index : Nat) (kind : StepKind)
  | otherwiseStep (index : Nat) (kind : StepKind)
  | target (index : Nat)
  deriving DecidableEq, Repr

/-- What a reference in this place refers to. -/
def ReferencePlace.entity : ReferencePlace → LibraryKind
  | step kind => kind.entity
  | controlStep _ kind => kind.entity
  | otherwiseStep _ kind => kind.entity
  | target _ => .object

/-- The reference in a place, if there is one. -/
def Program.reference? (p : Program) : ReferencePlace → Option Reference
  | .step kind => p.steps.get kind
  | .controlStep index kind => p.controls[index]?.bind (·.steps.get kind)
  | .otherwiseStep index kind => p.controls[index]?.bind fun c => c.otherwise.bind (·.get kind)
  | .target index => p.controls[index]?.bind fun c => c.event.bind (·.findObject)

/-- Whether a leaf is the name or the id of a reference. -/
def LeafPath.isOfReference : LeafPath → Bool
  | .step _ _ => true
  | .control _ .type => false
  | .control _ .times => false
  | .control _ .eventType => false
  | .control _ (.target _) => true
  | .control _ (.step _ _) => true
  | .control _ (.otherwise _ _) => true

/-- The same records are there, and the same leaves but for names and ids of references. -/
structure Program.SameButReferences (p q : Program) : Prop where
  hasRecord : ∀ path, q.hasRecord path = p.hasRecord path
  leaf? : ∀ path, path.isOfReference = false → q.leaf? path = p.leaf? path

/-! ## Changing all references -/

variable (f g : LibraryKind → Reference → Reference)

/-- Each step changes by its own kind. -/
theorem Steps.get_map (s : Steps) (kind : StepKind) :
    (s.map f).get kind = (s.get kind).map (f kind.entity) := by
  cases kind <;> rfl

theorem Steps.map_map (s : Steps) : (s.map f).map g = s.map fun kind r => g kind (f kind r) := by
  ext kind : 1
  rw [get_map, get_map, get_map, Option.map_map]
  rfl

namespace Control

variable (c : Control)

/-- Two changes in turn are one change of each reference. -/
theorem mapReferences_mapReferences : (c.mapReferences f).mapReferences g =
    c.mapReferences fun kind r => g kind (f kind r) := by
  have hevent : ∀ e : Event, (e.mapReferences f).mapReferences g =
      e.mapReferences fun kind r => g kind (f kind r) := by
    intro e
    simp only [Event.mapReferences, Option.map_map]
    rfl
  simp only [mapReferences, Option.map_map, Steps.map_map, Function.comp_def, hevent]

theorem eventType_mapReferences :
    (c.mapReferences f).event.bind (·.type) = c.event.bind (·.type) :=
  Option.bind_map

theorem target_mapReferences : (c.mapReferences f).event.bind (·.findObject) =
    (c.event.bind (·.findObject)).map (f .object) := by
  rw [Option.map_bind]
  exact Option.bind_map

/-- The steps of a second branch change by their kinds. -/
theorem otherwiseStep_mapReferences (kind : StepKind) :
    (c.mapReferences f).otherwise.bind (·.get kind) =
      (c.otherwise.bind (·.get kind)).map (f kind.entity) := by
  rw [Option.map_bind]
  simp only [mapReferences, Option.bind_map, Function.comp_def, Steps.get_map]

theorem step_mapReferences (kind : StepKind) :
    (c.mapReferences f).steps.get kind = (c.steps.get kind).map (f kind.entity) :=
  Steps.get_map f c.steps kind

/-- A change of references makes and drops no record. -/
theorem hasRecord_mapReferences (record : ControlRecord) :
    (c.mapReferences f).hasRecord record = c.hasRecord record := by
  cases record with
  | event => exact Option.isSome_map
  | target => rw [hasRecord, target_mapReferences, Option.isSome_map, hasRecord]
  | step kind => rw [hasRecord, step_mapReferences, Option.isSome_map, hasRecord]
  | otherwise => exact Option.isSome_map
  | otherwiseStep kind => rw [hasRecord, otherwiseStep_mapReferences, Option.isSome_map, hasRecord]

end Control

namespace Program

variable (p : Program)

/-- Two changes of a program in turn are one change of each reference. -/
theorem mapReferences_mapReferences : (p.mapReferences f).mapReferences g =
    p.mapReferences fun kind r => g kind (f kind r) := by
  simp only [mapReferences, Steps.map_map, List.map_map, Function.comp_def,
    Control.mapReferences_mapReferences]

theorem getElem?_mapReferences (index : Nat) :
    (p.mapReferences f).controls[index]? = p.controls[index]?.map (·.mapReferences f) :=
  List.getElem?_map

/-- In each place the reference is changed by what it refers to. -/
theorem reference?_mapReferences (place : ReferencePlace) :
    (p.mapReferences f).reference? place = (p.reference? place).map (f place.entity) := by
  cases place with
  | step kind => exact Steps.get_map f p.steps kind
  | controlStep index kind =>
      simp only [reference?, getElem?_mapReferences, Option.bind_map, Option.map_bind,
        Function.comp_def, Control.step_mapReferences]
      rfl
  | otherwiseStep index kind =>
      simp only [reference?, getElem?_mapReferences, Option.bind_map, Function.comp_def,
        Control.otherwiseStep_mapReferences]
      rw [Option.map_bind]
      rfl
  | target index =>
      simp only [reference?, getElem?_mapReferences, Option.bind_map, Function.comp_def,
        Control.target_mapReferences]
      rw [Option.map_bind]
      rfl

/-- A change of references leaves all else in a program as it is. -/
theorem sameButReferences_mapReferences : p.SameButReferences (p.mapReferences f) where
  hasRecord path := by
    cases path with
    | step kind =>
        rw [hasRecord, mapReferences, Steps.get_map, Option.isSome_map, hasRecord]
    | control index => rw [hasRecord, getElem?_mapReferences, Option.isSome_map, hasRecord]
    | inControl index record =>
        simp only [hasRecord, getElem?_mapReferences, Option.any_map,
          Control.hasRecord_mapReferences]
  leaf? path hpath := by
    cases path with
    | step => cases hpath
    | control index leaf =>
        rw [leaf?, getElem?_mapReferences, Option.bind_map, leaf?]
        congr 1
        funext c
        cases leaf with
        | type => rfl
        | times => rfl
        | eventType => exact congrArg (Option.map LeafValue.eventType) (Control.eventType_mapReferences f c)
        | _ => cases hpath

end Program

end TaskDiagram
