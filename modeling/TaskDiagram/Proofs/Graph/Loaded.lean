import TaskDiagram.Grammar.Standard
import TaskDiagram.Graph.OfProgram
import TaskDiagram.Proofs.Graph.Saving

/-! # The trees a program is loaded into

Under the standard grammar the trees of a loaded program can be written down without
a diagram. Steps form a chain, controls a chain of logic blocks, and what the grammar
accepts nowhere becomes a tree of its own.
-/

namespace TaskDiagram

/-- The fields of the block that stands for a reference. -/
def Reference.fields (r : Reference) : FieldMap :=
  let named : FieldMap := match r.name with
    | none => .empty
    | some name => .insert .empty fieldName (.text name)
  match r.id with
  | none => named
  | some id => named.insert fieldId (.int id)

/-- The block that stands for a reference, unless it is blank. -/
def Reference.tree? (r : Reference) (kind : LibraryKind) : Option Tree :=
  if r.isBlank then none else some (.node (.ofEntity kind) r.fields [])

/-- A block with a reference plugged in. -/
def Tree.holding (kind : BlockKind) (entity : LibraryKind) (r : Reference) : Tree :=
  (node kind .empty []).plug (.ofEntity entity) (r.tree? entity)

/-- The block that performs a step. -/
def Tree.ofStep (kind : StepKind) (r : Reference) : Tree := holding (.ofStep kind) kind.entity r

@[simp]
theorem Tree.kind_holding (kind : BlockKind) (entity : LibraryKind) (r : Reference) :
    (holding kind entity r).kind = kind := rfl

@[simp]
theorem Tree.kind_ofStep (kind : StepKind) (r : Reference) : (ofStep kind r).kind = .ofStep kind :=
  rfl

/-- The blocks of steps, in the order in which they are carried out. -/
def Steps.trees (s : Steps) : List Tree := s.toList.map fun (kind, r) => .ofStep kind r

/-- The chain of steps. -/
def Steps.tree? (s : Steps) : Option Tree := Tree.nest s.trees

/-- The kind of the first block of steps. -/
def Steps.first? (s : Steps) : Option BlockKind := s.toList.head?.map fun (kind, _) => .ofStep kind

/-- The chain of steps begins with the first of them. -/
theorem Steps.first?_eq (s : Steps) : s.first? = s.tree?.map Tree.kind := by
  unfold Steps.first? Steps.tree? Steps.trees Tree.nest
  cases s.toList <;> rfl

/-- Whether a socket accepts the first of some steps. -/
def Steps.fit (s : Steps) (owner : BlockKind) (socket : SocketName) : Bool :=
  s.first?.all (Grammar.standard.accepts owner socket ·)

/-- The chain of steps, where a socket accepts it. -/
def Steps.plugged (s : Steps) (owner : BlockKind) (socket : SocketName) : Option Tree :=
  if s.fit owner socket then s.tree? else none

/-- The chain of steps, where a socket does not accept it. -/
def Steps.detached (s : Steps) (owner : BlockKind) (socket : SocketName) : List Tree :=
  if s.fit owner socket then [] else s.tree?.toList

/-- What is recorded when steps are put into a socket. -/
def Steps.refusal (s : Steps) (owner : BlockKind) (socket : SocketName) : List WarningKind :=
  if s.fit owner socket then []
  else (s.first?.map fun first => .rejectedLink owner socket first).toList

/-- The block of an event of a known type. -/
def Event.tree? (e : Event) : Option Tree :=
  match e.type with
  | some .sensor => some (.node .sensorSignal .empty [])
  | some .human => some (.node .humanFeedback .empty [])
  | some .findObject => some (.holding .findObject .object (e.findObject.getD .blank))
  | _ => none

/-- What is recorded when an event is put into its socket. -/
def Event.findings (e : Event) : List WarningKind :=
  match e.type with
  | some (.other value) => [.unknownEventType value]
  | _ => []

/-- The nearest count a repetition admits. -/
def clampCount (n : Int64) : Int64 :=
  if n < Grammar.repeatMin then Grammar.repeatMin
  else if Grammar.repeatMax < n then Grammar.repeatMax
  else n

/-- The nearest count is within the bounds. -/
theorem clampCount_within (n : Int64) : 1 ≤ clampCount n ∧ clampCount n ≤ 99 := by
  unfold clampCount
  split
  · decide
  next hlow =>
    split
    · decide
    next hhigh => exact ⟨Int64.not_lt.mp hlow, Int64.not_lt.mp hhigh⟩

theorem clampCount_of_within {n : Int64} (hlow : 1 ≤ n) (hhigh : n ≤ 99) : clampCount n = n := by
  have hlow : ¬ n < Grammar.repeatMin := Int64.not_lt.mpr hlow
  have hhigh : ¬ Grammar.repeatMax < n := Int64.not_lt.mpr hhigh
  rw [clampCount, if_neg hlow, if_neg hhigh]

/-- A count is kept when it is within the bounds. -/
theorem clampCount_eq_self_iff {n : Int64} : clampCount n = n ↔ 1 ≤ n ∧ n ≤ 99 :=
  ⟨fun h => h ▸ clampCount_within n, fun h => clampCount_of_within h.1 h.2⟩

theorem clampCount_of_lt {n : Int64} (h : n < 1) : clampCount n = 1 := if_pos h

theorem clampCount_of_gt {n : Int64} (h : 99 < n) : clampCount n = 99 := by
  have hlow : ¬ n < Grammar.repeatMin :=
    Int64.not_lt.mpr (Int64.le_of_lt (Int64.lt_trans (by decide) h))
  have hhigh : Grammar.repeatMax < n := h
  rw [clampCount, if_neg hlow, if_pos hhigh]
  rfl

namespace Control

/-- The kind of logic block that stands for a control. -/
def kind? (c : Control) : Option BlockKind := c.type.bind Build.logicKind?

/-- There is a logic block for each type that is known, and for no other. -/
theorem isSome_kind? (c : Control) :
    c.kind?.isSome ↔ ∃ type, c.type = some type ∧ type.isKnown = true := by
  have htype : ∀ type, (Build.logicKind? type).isSome = type.isKnown := by
    intro type
    cases type <;> rfl
  simp [kind?, Option.isSome_bind, Option.any_eq_true, htype]

/-- The fields of the logic block of a control. -/
def fields (c : Control) (kind : BlockKind) : FieldMap :=
  match kind, c.times with
  | .repeated, some n => .insert .empty fieldTimes (.int (clampCount n))
  | _, _ => .empty

/-- What is recorded when a count is put into the block of a control. -/
def countFindings (c : Control) (kind : BlockKind) : List WarningKind :=
  match kind, c.times with
  | .repeated, some n => if clampCount n ≠ n then [.fieldClamped fieldTimes n (clampCount n)] else []
  | _, _ => []

/-- The event that guards the block of a control. -/
def guard? (c : Control) (kind : BlockKind) : Option Event :=
  if kind = .when ∨ kind = .whenOtherwise then c.event else none

/-- The steps of the second branch of the block of a control. -/
def second (c : Control) (kind : BlockKind) : Steps :=
  if kind = .whenOtherwise then c.otherwise.getD .empty else .empty

/-- The logic block of a control, with nothing behind it. -/
def tree (c : Control) (kind : BlockKind) : Tree :=
  (((Tree.node kind (c.fields kind) []).plug .when ((c.guard? kind).bind Event.tree?)).plug .body
    (c.steps.plugged kind .body)).plug .otherwise ((c.second kind).plugged kind .otherwise)

/-- Chains that no socket of the logic block of a control accepts. -/
def refused (c : Control) (kind : BlockKind) : List Tree :=
  c.steps.detached kind .body ++ (c.second kind).detached kind .otherwise

/-- What is recorded when the logic block of a control is filled. -/
def complaints (c : Control) (kind : BlockKind) : List WarningKind :=
  c.countFindings kind ++ ((c.guard? kind).map Event.findings).getD [] ++
    c.steps.refusal kind .body ++ (c.second kind).refusal kind .otherwise

/-- Chains beside the chain of controls that come from one control. -/
def strays (c : Control) : List Tree :=
  match c.kind? with
  | some kind => c.refused kind
  | none => if c.type = none ∧ c.isUnset then [] else c.steps.tree?.toList

/-- What is recorded when a control is loaded. -/
def findings (c : Control) : List WarningKind :=
  match c.kind? with
  | some kind => c.complaints kind
  | none =>
      if c.type = none ∧ c.isUnset then []
      else [.unknownControlType ((c.type.map ControlType.text).getD "null")]

/-- The logic blocks of controls; those of unknown type have none. -/
def trees (cs : List Control) : List Tree := cs.filterMap fun c => c.kind?.map c.tree

/-- The trees of controls whose chain stands on its own. -/
def roots : List Control → List Tree
  | [] => []
  | c :: rest =>
      match c.kind? with
      | none => c.strays ++ roots rest
      | some kind =>
          (Tree.nest (c.tree kind :: trees rest)).toList ++ c.strays ++ rest.flatMap strays

end Control

/-- Whether the chain of controls goes on behind the last of some steps. -/
def Steps.leadTo (s : Steps) (cs : List Control) : Bool :=
  match s.toList.getLast?, cs.findSome? Control.kind? with
  | some (last, _), some first => Grammar.standard.accepts (.ofStep last) .next first
  | _, _ => false

theorem Steps.leadTo_iff {s : Steps} {cs : List Control} : s.leadTo cs = true ↔
    ∃ t first, s.trees.getLast? = some t ∧ cs.findSome? Control.kind? = some first ∧
      Grammar.standard.accepts t.kind .next first = true := by
  unfold Steps.leadTo Steps.trees
  rw [List.getLast?_map]
  cases s.toList.getLast? with
  | none => simp
  | some step => cases cs.findSome? Control.kind? <;> simp

/-- Behind a place no chain of controls goes on. -/
theorem Steps.leadTo_of_place {s : Steps} (hplace : s.place.isSome) (cs : List Control) :
    s.leadTo cs = false := by
  obtain ⟨pick, processing, place⟩ := s
  have hnone : ∀ kind, Grammar.standard.accepts .place .next kind = false := by
    intro kind
    cases kind <;> rfl
  unfold Steps.leadTo
  cases place with
  | none => cases hplace
  | some =>
      cases cs.findSome? Control.kind? with
      | none => cases pick <;> cases processing <;> rfl
      | some first => cases pick <;> cases processing <;> exact hnone first

/-- The trees of a program. -/
def Program.trees (p : Program) : List Tree :=
  if p.steps.leadTo p.controls then
    (Tree.nest (p.steps.trees ++ Control.trees p.controls)).toList ++
      p.controls.flatMap Control.strays
  else p.steps.tree?.toList ++ Control.roots p.controls

end TaskDiagram
