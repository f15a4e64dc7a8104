import TaskDiagram.Graph.OfProgram

/-! # Leaves of programs

The leaves of a program are the single data that can be set in it: names and ids,
counts, types of controls and of events. Each is found under a path, whatever other
leaves are set.
-/

namespace TaskDiagram

/-- The leaves of a reference. -/
inductive ReferenceLeaf where
  | name
  | id
  deriving DecidableEq, Repr

/-- The leaves of a control. -/
inductive ControlLeaf where
  | type
  | times
  | eventType
  | target (leaf : ReferenceLeaf)
  | step (kind : StepKind) (leaf : ReferenceLeaf)
  | otherwise (kind : StepKind) (leaf : ReferenceLeaf)
  deriving DecidableEq, Repr

/-- The leaves of a program: those of its steps, and those of the controls in its chain. -/
inductive LeafPath where
  | step (kind : StepKind) (leaf : ReferenceLeaf)
  | control (index : Nat) (leaf : ControlLeaf)
  deriving DecidableEq, Repr

/-- What a leaf is set to. -/
inductive LeafValue where
  | text (s : String)
  | int (n : Int64)
  | controlType (type : ControlType)
  | eventType (type : EventType)
  deriving DecidableEq, Repr

def Reference.leaf? (r : Reference) : ReferenceLeaf → Option LeafValue
  | .name => r.name.map .text
  | .id => r.id.map .int

def Steps.leaf? (s : Steps) (kind : StepKind) (leaf : ReferenceLeaf) : Option LeafValue :=
  (s.get kind).bind (·.leaf? leaf)

def Control.leaf? (c : Control) : ControlLeaf → Option LeafValue
  | .type => c.type.map .controlType
  | .times => c.times.map .int
  | .eventType => (c.event.bind (·.type)).map .eventType
  | .target leaf => (c.event.bind (·.findObject)).bind (·.leaf? leaf)
  | .step kind leaf => c.steps.leaf? kind leaf
  | .otherwise kind leaf => c.otherwise.bind (·.leaf? kind leaf)

def Program.leaf? (p : Program) : LeafPath → Option LeafValue
  | .step kind leaf => p.steps.leaf? kind leaf
  | .control index leaf => p.controls[index]?.bind (·.leaf? leaf)

/-- A reference is its two leaves. -/
@[ext (iff := false)]
theorem Reference.ext_leaf? {r s : Reference} (h : ∀ leaf, r.leaf? leaf = s.leaf? leaf) :
    r = s := by
  obtain ⟨name, id⟩ := r
  obtain ⟨name', id'⟩ := s
  have hname : name.map LeafValue.text = name'.map LeafValue.text := h .name
  have hid : id.map LeafValue.int = id'.map LeafValue.int := h .id
  obtain rfl := Option.map_injective (fun _ _ => LeafValue.text.inj) hname
  obtain rfl := Option.map_injective (fun _ _ => LeafValue.int.inj) hid
  rfl

/-- Steps are the same when they are kind by kind. -/
@[ext (iff := false)]
theorem Steps.ext_get {s t : Steps} (h : ∀ kind, s.get kind = t.get kind) : s = t := by
  obtain ⟨pick, processing, place⟩ := s
  obtain ⟨pick', processing', place'⟩ := t
  obtain rfl : pick = pick' := h .pick
  obtain rfl : processing = processing' := h .processing
  obtain rfl : place = place' := h .place
  rfl

section Congr

variable {c d : Control} (h : ∀ leaf, c.leaf? leaf = d.leaf? leaf)
include h

theorem Control.type_congr : c.type = d.type :=
  Option.map_injective (fun _ _ => LeafValue.controlType.inj) (h .type)

theorem Control.times_congr : c.times = d.times :=
  Option.map_injective (fun _ _ => LeafValue.int.inj) (h .times)

theorem Control.eventType_congr : c.event.bind (·.type) = d.event.bind (·.type) :=
  Option.map_injective (fun _ _ => LeafValue.eventType.inj) (h .eventType)

end Congr

/-! ## Nothing is set -/

theorem Reference.leaf?_blank (leaf : ReferenceLeaf) : blank.leaf? leaf = none := by
  cases leaf <;> rfl

theorem Reference.leaf?_getD_blank (r : Option Reference) (leaf : ReferenceLeaf) :
    (r.getD .blank).leaf? leaf = r.bind (·.leaf? leaf) := by
  cases r with
  | none => exact leaf?_blank leaf
  | some r => rfl

/-- References with the same leaves are the same, if a missing one counts as blank. -/
theorem Reference.getD_blank_congr {r s : Option Reference}
    (h : ∀ leaf, r.bind (·.leaf? leaf) = s.bind (·.leaf? leaf)) :
    r.getD .blank = s.getD .blank := by
  ext leaf : 1
  rw [leaf?_getD_blank, leaf?_getD_blank, h leaf]

/-- Steps that are missing and steps that are there without any step have no leaves. -/
theorem Steps.leaf?_getD (s : Option Steps) (kind : StepKind) (leaf : ReferenceLeaf) :
    (s.getD .empty).leaf? kind leaf = s.bind (·.leaf? kind leaf) := by
  cases s with
  | none => cases kind <;> rfl
  | some s => rfl

/-- A reference is blank when none of its leaves is set. -/
theorem Reference.isBlank_iff_leaf? {r : Reference} :
    r.isBlank = true ↔ ∀ leaf, r.leaf? leaf = none := by
  obtain ⟨name, id⟩ := r
  constructor
  · intro hblank leaf
    cases name <;> cases id <;> cases leaf <;> first | rfl | cases hblank
  · intro hleaf
    have hname := hleaf .name
    have hid := hleaf .id
    simp_all [leaf?, isBlank]

theorem Reference.isUnset_iff_leaf? {r : Option Reference} :
    isUnset r = true ↔ ∀ leaf, r.bind (·.leaf? leaf) = none := by
  cases r with
  | none => simp [isUnset]
  | some r => exact isBlank_iff_leaf?

/-- Steps count as unset when none of their leaves is set. -/
theorem Steps.isUnset_iff_leaf? {s : Steps} :
    s.isUnset = true ↔ ∀ kind leaf, s.leaf? kind leaf = none := by
  have hkinds : (∀ kind leaf, s.leaf? kind leaf = none) ↔ Reference.isUnset s.pick = true ∧
      Reference.isUnset s.processing = true ∧ Reference.isUnset s.place = true := by
    simp only [Reference.isUnset_iff_leaf?]
    constructor
    · exact fun h => ⟨h .pick, h .processing, h .place⟩
    · rintro ⟨hpick, hprocessing, hplace⟩ kind
      cases kind
      · exact hpick
      · exact hprocessing
      · exact hplace
  rw [hkinds]
  simp [isUnset, and_assoc]

/-- A control counts as unset when its type is the only leaf that may be set. -/
theorem Control.isUnset_iff_leaf? {c : Control} :
    c.isUnset = true ↔ ∀ leaf, leaf ≠ .type → c.leaf? leaf = none := by
  have hevent : (c.event.map Event.isUnset).getD true = true ↔
      c.leaf? .eventType = none ∧ ∀ leaf, c.leaf? (.target leaf) = none := by
    cases hevent : c.event with
    | none => simp [leaf?, hevent]
    | some e => simp [leaf?, hevent, Event.isUnset, Reference.isUnset_iff_leaf?]
  have hotherwise : (c.otherwise.map Steps.isUnset).getD true = true ↔
      ∀ kind leaf, c.leaf? (.otherwise kind leaf) = none := by
    cases hotherwise : c.otherwise with
    | none => simp [leaf?, hotherwise]
    | some s => simp [leaf?, hotherwise, Steps.isUnset_iff_leaf?]
  -- Each record of the control is unset when no leaf below it is set.
  have hsplit : c.isUnset = true ↔ c.times = none ∧
      (c.leaf? .eventType = none ∧ ∀ leaf, c.leaf? (.target leaf) = none) ∧
      (∀ kind leaf, c.leaf? (.otherwise kind leaf) = none) ∧
      ∀ kind leaf, c.leaf? (.step kind leaf) = none := by
    rw [← hevent, ← hotherwise]
    simp [isUnset, leaf?, Steps.isUnset_iff_leaf?, and_assoc]
  rw [hsplit]
  constructor
  · rintro ⟨htimes, ⟨htype, htarget⟩, hotherwise, hstep⟩ leaf hne
    cases leaf with
    | type => exact absurd rfl hne
    | times => simp [leaf?, htimes]
    | eventType => exact htype
    | target leaf => exact htarget leaf
    | step kind leaf => exact hstep kind leaf
    | otherwise kind leaf => exact hotherwise kind leaf
  · intro h
    refine ⟨?_, ⟨h .eventType nofun, fun leaf => h (.target leaf) nofun⟩,
      fun kind leaf => h (.otherwise kind leaf) nofun, fun kind leaf => h (.step kind leaf) nofun⟩
    simpa [leaf?] using h .times nofun

/-- Whether a control counts as unset is told from its leaves. -/
theorem Control.isUnset_congr {c d : Control} (h : ∀ leaf, c.leaf? leaf = d.leaf? leaf) :
    c.isUnset = d.isUnset := by
  rw [Bool.eq_iff_iff, isUnset_iff_leaf?, isUnset_iff_leaf?]
  simp only [h]

/-- Controls in which nothing is set, not even a type. -/
def Control.isSkipped (c : Control) : Bool := c.type.isNone && c.isUnset

/-- A control is passed over when none of its leaves is set. -/
theorem Control.isSkipped_iff_leaf? {c : Control} :
    c.isSkipped = true ↔ ∀ leaf, c.leaf? leaf = none := by
  rw [isSkipped, Bool.and_eq_true, Option.isNone_iff_eq_none, isUnset_iff_leaf?]
  constructor
  · rintro ⟨htype, hothers⟩ leaf
    by_cases hleaf : leaf = .type
    · simp [hleaf, leaf?, htype]
    · exact hothers leaf hleaf
  · intro h
    exact ⟨by simpa [leaf?] using h .type, fun leaf _ => h leaf⟩

end TaskDiagram
