import TaskDiagram.Program.Basic

/-!
# Merging drafts

A draft is folded into a program leaf by leaf: what the draft sets takes the place of what was
there, what it leaves unset stays. A record is there afterwards if it was there in either.
-/

namespace TaskDiagram

/-- The later leaf, unless it is unset. -/
def mergeLeaf {α : Type} (earlier later : Option α) : Option α := later.or earlier

/-- Records merged with one another; one alone stays as it is. -/
def mergeRecord {α : Type} (merge : α → α → α) : Option α → Option α → Option α
  | some earlier, some later => some (merge earlier later)
  | earlier, later => later.or earlier

def Reference.merge (earlier later : Reference) : Reference :=
  ⟨mergeLeaf earlier.name later.name, mergeLeaf earlier.id later.id⟩

def Event.merge (earlier later : Event) : Event :=
  ⟨mergeLeaf earlier.type later.type,
    mergeRecord Reference.merge earlier.findObject later.findObject⟩

def Steps.merge (earlier later : Steps) : Steps :=
  ⟨mergeRecord Reference.merge earlier.pick later.pick,
    mergeRecord Reference.merge earlier.processing later.processing,
    mergeRecord Reference.merge earlier.place later.place⟩

namespace Control

def merge (earlier later : Control) : Control where
  type := mergeLeaf earlier.type later.type
  times := mergeLeaf earlier.times later.times
  event := mergeRecord Event.merge earlier.event later.event
  otherwise := mergeRecord Steps.merge earlier.otherwise later.otherwise
  steps := earlier.steps.merge later.steps

/-- Controls merged one by one; the longer chain keeps its end. -/
def mergeChain : List Control → List Control → List Control
  | [], later => later
  | earlier, [] => earlier
  | c :: earlier, d :: later => c.merge d :: mergeChain earlier later

end Control

/-- A program with a draft folded into it. -/
def Program.merge (earlier later : Program) : Program where
  steps := earlier.steps.merge later.steps
  controls := Control.mergeChain earlier.controls later.controls

end TaskDiagram
