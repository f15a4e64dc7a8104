import TaskDiagram.Proofs.Graph.Loading.Counts

/-! # What is recorded while a program is loaded

The findings of loading are those about its controls, in the order of the controls, and each points
at a block: at the logic block of its control, at the first step of a control of unknown type, or at
the first step of a branch that its socket refuses. No other link is refused and no field is
dropped.
-/

namespace TaskDiagram

open TaskDiagram.Tree (total)

/-! ## Findings about controls -/

/-- The first step, where a branch of the block refuses it: no branch begins with processing, and
only those of a two-way condition with a place. -/
def Steps.refused? (s : Steps) (owner : BlockKind) : Option StepKind :=
  match s.pick, s.processing, s.place with
  | some _, _, _ => none
  | none, some _, _ => some .processing
  | none, none, some _ => if owner = .whenOtherwise then none else some .place
  | none, none, none => none

/-- The finding about steps that a branch refuses; `head` is the first of their blocks. -/
def Steps.branchReports (s : Steps) (owner : BlockKind) (socket : SocketName) (head : BlockId) :
    List Warning :=
  ((s.refused? owner).map fun first =>
    .about head (.rejectedLink owner socket (.ofStep first))).toList

namespace Control

variable (c : Control) (start : BlockId)

/-- The first block of the body, when `start` is the first one of the control: behind the logic
block and its event. -/
def bodyStart (kind : BlockKind) : BlockId :=
  start + 1 + total ((c.guard? kind).bind Event.tree?).toList

/-- The first block of the second branch. -/
def secondStart (kind : BlockKind) : BlockId := c.bodyStart start kind + c.steps.blockCount

/-- Types that are unknown or missing; a control in which nothing is set is passed over. -/
def typeReports : List Warning :=
  let head := if c.steps.isEmpty then none else some start
  match c.type with
  | none => if c.isUnset then [] else [⟨head, .unknownControlType "null"⟩]
  | some (.other text) => [⟨head, .unknownControlType text⟩]
  | _ => []

/-- Counts beyond the bounds. -/
def countReports : List Warning :=
  match c.type, c.times with
  | some .repeated, some n =>
      if 1 ≤ n ∧ n ≤ 99 then []
      else [.about start (.fieldClamped "times" n (if n < 1 then 1 else 99))]
  | _, _ => []

/-- Events of unknown type. -/
def eventReports : List Warning :=
  match c.type, c.event.bind (·.type) with
  | some .when, some (.other text) => [.about start (.unknownEventType text)]
  | some .whenOtherwise, some (.other text) => [.about start (.unknownEventType text)]
  | _, _ => []

/-- Branches that are refused. -/
def linkReports : List Warning :=
  match c.kind? with
  | none => []
  | some kind =>
      c.steps.branchReports kind .body (c.bodyStart start kind) ++
        if kind = .whenOtherwise then
          (c.otherwise.getD .empty).branchReports kind .otherwise (c.secondStart start kind)
        else []

/-- What is found about a control whose first block is `start`. -/
def reports : List Warning :=
  c.typeReports start ++ c.countReports start ++ c.eventReports start ++ c.linkReports start

/-- The chains of a control that stand beside its logic block, each with its first block. -/
def leftOut : List (BlockId × Tree) :=
  match c.kind? with
  | none => c.strays.map (start, ·)
  | some kind =>
      (c.steps.detached kind .body).map (c.bodyStart start kind, ·) ++
        ((c.second kind).detached kind .otherwise).map (c.secondStart start kind, ·)

/-- The controls of a chain, each with the id of its first block. -/
def numbered : (start : BlockId) → List Control → List (BlockId × Control)
  | _, [] => []
  | start, c :: rest => (start, c) :: numbered (start + c.blockCount) rest

end Control

/-- The controls of a program, each with the id of its first block. -/
def Program.numbered (p : Program) : List (BlockId × Control) :=
  Control.numbered p.steps.blockCount p.controls

/-- What is found while a program is loaded. -/
def Program.reports (p : Program) : List Warning :=
  p.numbered.flatMap fun (start, c) => c.reports start

/-! ## The grammar behind the findings -/

namespace Steps

variable (s : Steps) {owner : BlockKind} {socket : SocketName}
  (hsocket : owner ∈ Grammar.logicKinds ∧ socket = .body ∨
    owner = .whenOtherwise ∧ socket = .otherwise)

include hsocket

/-- What is refused is the first step, where the grammar does not accept it. -/
theorem refused?_eq : s.refused? owner = (s.toList.head?.map (·.1)).filter
    fun first => !Grammar.standard.accepts owner socket (.ofStep first) := by
  have haccepts : ∀ first, Grammar.standard.accepts owner socket (.ofStep first) =
      decide (first = .pick ∨ first = .place ∧ owner = .whenOtherwise) := by
    intro first
    rcases hsocket with ⟨hlogic, rfl⟩ | ⟨rfl, rfl⟩
    · simp only [Grammar.logicKinds, List.mem_cons, List.not_mem_nil, or_false] at hlogic
      rcases hlogic with rfl | rfl | rfl | rfl <;> cases first <;> rfl
    · cases first <;> rfl
  obtain ⟨pick, processing, place⟩ := s
  cases pick <;> cases processing <;> cases place <;>
    simp [refused?, toList, StepKind.all, get, Option.filter, haccepts]

/-- The findings about a branch are those about its first step, at the block of that step. -/
theorem map_refusal (head : BlockId) :
    (s.refusal owner socket).map (.about head) = s.branchReports owner socket head := by
  rw [branchReports, s.refused?_eq hsocket, refusal, fit, first?]
  cases s.toList.head? with
  | none => rfl
  | some first =>
      cases haccepts : Grammar.standard.accepts owner socket (.ofStep first.1) <;>
        simp [Option.filter, haccepts]

end Steps

theorem Steps.isEmpty_eq (s : Steps) : s.isEmpty = s.tree?.isNone := by
  obtain ⟨pick, processing, place⟩ := s
  cases pick <;> cases processing <;> cases place <;> rfl

namespace Control

variable {c : Control} {kind : BlockKind} {start : BlockId}

theorem leftOut_of_no_kind (hkind : c.kind? = none) :
    c.leftOut start = c.strays.map (start, ·) := by
  rw [leftOut, hkind]

theorem leftOut_of_kind (hkind : c.kind? = some kind) : c.leftOut start =
    (c.steps.detached kind .body).map (c.bodyStart start kind, ·) ++
      ((c.second kind).detached kind .otherwise).map (c.secondStart start kind, ·) := by
  rw [leftOut, hkind]

/-- What is found about a count is found at the logic block. -/
theorem map_countFindings (hkind : c.kind? = some kind) :
    (c.countFindings kind).map (.about start) = c.countReports start := by
  obtain ⟨type, htype, hlogic⟩ := Option.bind_eq_some_iff.mp hkind
  unfold countFindings countReports
  rw [htype]
  cases type <;> cases hlogic <;> try rfl
  cases c.times with
  | none => rfl
  | some n =>
      dsimp only
      by_cases hn : 1 ≤ n ∧ n ≤ 99
      · rw [clampCount_of_within hn.1 hn.2, if_pos hn, if_neg (not_not.mpr rfl), List.map_nil]
      · have hmoved : clampCount n ≠ n := mt clampCount_eq_self_iff.mp hn
        have hbound : clampCount n = if n < 1 then 1 else 99 := by
          by_cases hlow : n < 1
          · rw [if_pos hlow, clampCount_of_lt hlow]
          · have hhigh := Int64.not_le.mp fun hle => hn ⟨Int64.not_lt.mp hlow, hle⟩
            rw [if_neg hlow, clampCount_of_gt hhigh]
        rw [if_neg hn, if_pos hmoved, hbound]
        rfl

/-- What is found about an event is found at the logic block. -/
theorem map_eventFindings (hkind : c.kind? = some kind) :
    (((c.guard? kind).map Event.findings).getD []).map (.about start) = c.eventReports start := by
  obtain ⟨type, htype, hlogic⟩ := Option.bind_eq_some_iff.mp hkind
  unfold guard? eventReports
  rw [htype]
  cases type <;> cases hlogic <;> try rfl
  all_goals
    cases c.event with
    | none => rfl
    | some e =>
        obtain ⟨type, target⟩ := e
        rcases type with _ | (_ | _ | _ | _) <;> rfl

theorem typeReports_of_kind (hkind : c.kind? = some kind) : c.typeReports start = [] := by
  obtain ⟨type, htype, hlogic⟩ := Option.bind_eq_some_iff.mp hkind
  rw [typeReports, htype]
  cases type <;> first | rfl | cases hlogic

/-- What is found about the branches is found at their first blocks. -/
theorem linkReports_of_kind (hkind : c.kind? = some kind) : c.linkReports start =
    (c.steps.refusal kind .body).map (.about (c.bodyStart start kind)) ++
      ((c.second kind).refusal kind .otherwise).map (.about (c.secondStart start kind)) := by
  have hlogic := Graph.mem_logicKinds hkind
  have hlinks : c.linkReports start = c.steps.branchReports kind .body (c.bodyStart start kind) ++
      if kind = .whenOtherwise then
        (c.otherwise.getD .empty).branchReports kind .otherwise (c.secondStart start kind)
      else [] := by rw [linkReports, hkind]
  rw [hlinks, c.steps.map_refusal (.inl ⟨hlogic, rfl⟩), second]
  split
  next hlast => rw [Steps.map_refusal _ (.inr ⟨hlast, rfl⟩)]
  next => rfl

/-- What is found about a control with a logic block, in the order in which the block is filled. -/
theorem reports_of_kind (hkind : c.kind? = some kind) : c.reports start =
    (c.countFindings kind ++ ((c.guard? kind).map Event.findings).getD []).map (.about start) ++
      (c.steps.refusal kind .body).map (.about (c.bodyStart start kind)) ++
      ((c.second kind).refusal kind .otherwise).map (.about (c.secondStart start kind)) := by
  rw [reports, typeReports_of_kind hkind, linkReports_of_kind hkind, List.map_append,
    map_countFindings hkind, map_eventFindings hkind]
  simp only [List.nil_append, List.append_assoc]

/-- Of a control without a logic block the type is reported, unless nothing is set in it. -/
theorem reports_of_no_kind (hkind : c.kind? = none) : c.reports start =
    if c.type = none ∧ c.isUnset then []
    else [⟨c.steps.tree?.map fun _ => start,
      .unknownControlType ((c.type.map ControlType.text).getD "null")⟩] := by
  have hhead : (if c.steps.isEmpty then none else some start) = c.steps.tree?.map fun _ => start := by
    rw [c.steps.isEmpty_eq]
    cases c.steps.tree? <;> rfl
  rw [reports, typeReports, countReports, eventReports, linkReports, hkind, hhead]
  cases htype : c.type with
  | none => cases c.isUnset <;> rfl
  | some type =>
      rw [kind?, htype] at hkind
      cases type <;> first | rfl | cases hkind

end Control

end TaskDiagram
