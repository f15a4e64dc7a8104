import TaskDiagram.Graph.ToProgram
import TaskDiagram.Graph.Validation

/-! # Branches and logic blocks

Saving keeps the first step of each kind in a branch and reads every logic block as a
control. A step is reported as standing in a branch a second time exactly when it is
not the one that is kept, and inside a logic block every other logic block is reported.

For each check it is said here what its findings are and when it has none.
-/

namespace TaskDiagram.Graph

variable {g : Graph} {id : BlockId} {step : StepKind} {seen : List StepKind} {nested : Bool}
  {ids : List BlockId} {w : Warning}

/-- The first block of a kind of step in a branch. -/
def firstStep? (g : Graph) (branch : List BlockId) (step : StepKind) : Option BlockId :=
  branch.find? fun id => g.kind? id == some (.ofStep step)

/-- A step is read from the first block of its kind in the branch. -/
theorem readStep_eq_firstStep? (g : Graph) (branch : List BlockId) (step : StepKind) :
    g.readStep branch step =
      (g.firstStep? branch step).map fun id => g.readReference id (.ofEntity step.entity) := rfl

theorem get_readSteps (g : Graph) (branch : List BlockId) (step : StepKind) :
    (g.readSteps branch).get step = g.readStep branch step := by
  cases step <;> rfl

theorem mem_of_firstStep? (h : g.firstStep? ids step = some id) : id ∈ ids :=
  List.mem_of_find?_eq_some h

theorem kind_of_firstStep? (h : g.firstStep? ids step = some id) :
    g.kind? id = some (.ofStep step) := by
  simpa using List.find?_some h

theorem firstStep?_isSome (hid : id ∈ ids) (hkind : g.kind? id = some (.ofStep step)) :
    (g.firstStep? ids step).isSome :=
  List.find?_isSome.mpr ⟨id, hid, by simp [hkind]⟩

theorem firstStep?_cons_self (hkind : g.kind? id = some (.ofStep step)) :
    g.firstStep? (id :: ids) step = some id := by
  simp [firstStep?, hkind]

theorem firstStep?_cons_of_ne (hkind : g.kind? id ≠ some (.ofStep step)) :
    g.firstStep? (id :: ids) step = g.firstStep? ids step := by
  simp [firstStep?, hkind]

theorem step?_ofStep (step : StepKind) : (BlockKind.ofStep step).step? = some step := by
  cases step <;> rfl

theorem ofStep_inj {a b : StepKind} : BlockKind.ofStep a = .ofStep b ↔ a = b := by
  cases a <;> cases b <;> decide

theorem eq_ofStep {kind : BlockKind} (h : kind.step? = some step) : kind = .ofStep step := by
  cases kind <;> cases h <;> rfl

/-- A block is a step of a kind when its kind is that of the step. -/
theorem kind_bind_step? : (g.kind? id).bind BlockKind.step? = some step ↔
    g.kind? id = some (.ofStep step) := by
  constructor
  · intro h
    obtain ⟨kind, hkind, hstep⟩ := Option.bind_eq_some_iff.mp h
    rw [hkind, eq_ofStep hstep]
  · intro h
    simp [h, step?_ofStep]

/-! ## Logic blocks -/

theorem isLogic_of_controlType? {kind : BlockKind} {type : ControlType}
    (h : controlType? kind = some type) : kind.isLogic = true := by
  cases kind <;> first | rfl | cases h

theorem exists_controlType? {kind : BlockKind} (h : kind.isLogic = true) :
    ∃ type, controlType? kind = some type := by
  cases kind <;> first | exact ⟨_, rfl⟩ | cases h

/-- The control that is read from a logic block of a kind. -/
def controlAs (g : Graph) (id : BlockId) (kind : BlockKind) (type : ControlType) : Control where
  type := some type
  times := if kind == .repeated then (g.block? id).bind (·.intField? fieldTimes) else none
  event := if kind == .when || kind == .whenOtherwise then some (g.readEvent id) else none
  otherwise :=
    if kind == .whenOtherwise then some (g.readSteps (g.branch id .otherwise)) else none
  steps := g.readSteps (g.branch id .body)

/-- What is read from a logic block depends on its kind and on the type it stands for. -/
theorem readControl_eq_controlAs {id : BlockId} {kind : BlockKind} {type : ControlType}
    (hkind : g.kind? id = some kind) (htype : controlType? kind = some type) :
    g.readControl id = some (g.controlAs id kind type) := by
  obtain ⟨b, hb, rfl⟩ := Option.map_eq_some_iff.mp hkind
  simp [readControl, controlAs, hb, htype]

/-! ## Findings about a block by itself -/

section Block

variable {catalog : Option Catalog} {b : Block}

/-- What is found about a reference is that it is not resolved. -/
theorem mem_referenceFindings (h : w ∈ referenceFindings catalog id b) :
    ∃ entity name, w = .about id (.unresolvedReference entity name) := by
  unfold referenceFindings at h
  cases hentity : b.kind.entity? with
  | none =>
      rw [hentity] at h
      cases h
  | some entity =>
      rw [hentity] at h
      simp only [List.mem_ite_nil_left, List.mem_singleton] at h
      exact ⟨entity, _, h.2⟩

/-- What is found about sockets is that one is empty. -/
theorem mem_inputFindings (h : w ∈ g.inputFindings id b) :
    ∃ socket, w = .about id (.missingInput socket) := by
  unfold inputFindings at h
  split at h
  next => cases h
  next =>
    obtain ⟨s, -, rfl⟩ := List.mem_map.mp h
    exact ⟨s.name, rfl⟩

/-- What is found about a count is that there is none. -/
theorem mem_countFindings (h : w ∈ countFindings id b) : w = .about id .missingRepeatCount := by
  unfold countFindings at h
  split at h
  · exact List.mem_singleton.mp h
  · cases h

/-- Nothing is found about a library block when it has an id and the catalog, if there is one, knows
it. -/
theorem referenceFindings_eq_nil_iff : referenceFindings catalog id b = [] ↔
    ∀ entity, b.kind.entity? = some entity → ∃ item, b.intField? fieldId = some item ∧
      ∀ library, catalog = some library → library.contains entity item = true := by
  unfold referenceFindings
  cases b.kind.entity? with
  | none => simp
  | some entity => cases b.intField? fieldId <;> cases catalog <;> simp

/-- Nothing is found about sockets when those that must be filled are. -/
theorem inputFindings_eq_nil_iff : g.inputFindings id b = [] ↔
    ∀ spec, g.grammar.spec? b.kind = some spec →
      ∀ s ∈ spec.sockets, s.required = true → (b.inputs.get? s.name).isSome := by
  unfold inputFindings
  cases g.grammar.spec? b.kind with
  | none => simp
  | some spec => simp [List.filter_eq_nil_iff, Option.ne_none_iff_isSome]

/-- Nothing is found about a count when a repetition has one. -/
theorem countFindings_eq_nil_iff : countFindings id b = [] ↔
    (b.kind = .repeated → (b.field? fieldTimes).isSome) := by
  unfold countFindings
  split
  next h => simp_all
  next h => simp_all [Option.ne_none_iff_isSome]

end Block

/-! ## Findings block by block -/

/-- What is found about one block of a branch. -/
def linkFindings (g : Graph) (nested : Bool) (seen : List StepKind) (id : BlockId) :
    List Warning :=
  match (g.kind? id).bind BlockKind.step? with
  | some step => if seen.contains step then [.about id (.duplicateStep step)] else []
  | none => if g.isLogicBlock id && nested then [.about id .nestedControl] else []

/-- The kinds of steps met after one block more. -/
def met (g : Graph) (seen : List StepKind) (id : BlockId) : List StepKind :=
  match (g.kind? id).bind BlockKind.step? with
  | some step => if seen.contains step then seen else step :: seen
  | none => seen

/-- A branch is judged block by block, with the kinds of steps that were met on the way. -/
theorem branchFindings_cons (g : Graph) (nested : Bool) (seen : List StepKind) (id : BlockId)
    (ids : List BlockId) : g.branchFindings nested seen (id :: ids) =
      g.linkFindings nested seen id ++ g.branchFindings nested (g.met seen id) ids := by
  rw [branchFindings, linkFindings, met, isLogicBlock]
  cases g.kind? id with
  | none => simp
  | some kind =>
      simp only [Option.bind_some, Option.map_some, Option.getD_some]
      cases kind.step? with
      | none => dsimp only; split <;> simp
      | some step => dsimp only; split <;> simp

/-- What is found about a block of a branch is that it is there a second time or must not be there.
-/
theorem mem_linkFindings {x : BlockId} (h : w ∈ g.linkFindings nested seen x) :
    (∃ kind, g.kind? x = some kind) ∧
      ((∃ step, w = .about x (.duplicateStep step)) ∨ w = .about x .nestedControl) := by
  rw [linkFindings] at h
  split at h
  next step hstep =>
    split at h
    · exact ⟨⟨_, kind_bind_step?.mp hstep⟩, .inl ⟨step, List.mem_singleton.mp h⟩⟩
    · cases h
  next =>
    rw [isLogicBlock] at h
    cases hkind : g.kind? x with
    | none => simp [hkind] at h
    | some kind =>
        split at h
        · exact ⟨⟨kind, rfl⟩, .inr (List.mem_singleton.mp h)⟩
        · cases h

/-- What is found about a branch is about blocks that are there. -/
theorem mem_branchFindings (h : w ∈ g.branchFindings nested seen ids) :
    ∃ x, (∃ kind, g.kind? x = some kind) ∧
      ((∃ step, w = .about x (.duplicateStep step)) ∨ w = .about x .nestedControl) := by
  induction ids generalizing seen with
  | nil => cases h
  | cons x rest ih =>
      rw [branchFindings_cons, List.mem_append] at h
      rcases h with hx | hrest
      · exact ⟨x, mem_linkFindings hx⟩
      · exact ih hrest

/-- What is missing in a branch is reported at its owner. -/
theorem mem_missingSteps {owner : Option BlockId} (h : w ∈ g.missingSteps owner ids) :
    ∃ step, w = ⟨owner, .missingStep step⟩ := by
  unfold missingSteps at h
  dsimp only at h
  split at h
  · cases h
  · obtain ⟨step, -, rfl⟩ := List.mem_map.mp h
    exact ⟨step, rfl⟩

/-- The kinds of steps met are those met before and that of the block. -/
theorem mem_met {x : BlockId} :
    step ∈ g.met seen x ↔ step ∈ seen ∨ g.kind? x = some (.ofStep step) := by
  rw [met, ← kind_bind_step?]
  cases (g.kind? x).bind BlockKind.step? with
  | none => simp
  | some other =>
      by_cases hother : other ∈ seen
      · simp only [List.contains_iff_mem, hother, if_true, Option.some.injEq]
        refine ⟨.inl, fun h => h.elim id ?_⟩
        rintro rfl
        exact hother
      · simp [hother, eq_comm, or_comm]

theorem duplicate_mem_linkFindings {x : BlockId} :
    .about id (.duplicateStep step) ∈ g.linkFindings nested seen x ↔
      x = id ∧ g.kind? id = some (.ofStep step) ∧ step ∈ seen := by
  rw [linkFindings]
  cases hx : (g.kind? x).bind BlockKind.step? with
  | none =>
      have hne : x = id → g.kind? id ≠ some (.ofStep step) := by
        rintro rfl hkind
        rw [kind_bind_step?.mpr hkind] at hx
        cases hx
      dsimp only
      split <;> simpa [Warning.about] using fun hid hkind => absurd hkind (hne hid)
  | some other =>
      rw [kind_bind_step?] at hx
      have hself : x = id → (g.kind? id = some (.ofStep step) ↔ other = step) := by
        rintro rfl
        rw [hx, Option.some.injEq, ofStep_inj]
      dsimp only
      split
      next hother =>
        have hother : other ∈ seen := by simpa using hother
        simp only [List.mem_singleton, Warning.about, Warning.mk.injEq, Option.some.injEq,
          WarningKind.duplicateStep.injEq]
        constructor
        · rintro ⟨rfl, rfl⟩
          exact ⟨rfl, hx, hother⟩
        · rintro ⟨rfl, hkind, -⟩
          exact ⟨rfl, ((hself rfl).mp hkind).symm⟩
      next hother =>
        have hother : other ∉ seen := by simpa using hother
        simp only [List.not_mem_nil, false_iff]
        rintro ⟨rfl, hkind, hseen⟩
        exact hother ((hself rfl).mp hkind ▸ hseen)

/-- A step is reported as standing there a second time when a step of its kind was met before or
is kept in its place. -/
theorem duplicate_mem_branchFindings (hnodup : ids.Nodup) :
    .about id (.duplicateStep step) ∈ g.branchFindings nested seen ids ↔
      id ∈ ids ∧ g.kind? id = some (.ofStep step) ∧
        (step ∈ seen ∨ g.firstStep? ids step ≠ some id) := by
  induction ids generalizing seen with
  | nil => simp [branchFindings]
  | cons x rest ih =>
      obtain ⟨hx, hrest⟩ := List.nodup_cons.mp hnodup
      rw [branchFindings_cons, List.mem_append, duplicate_mem_linkFindings, ih hrest, mem_met,
        List.mem_cons]
      by_cases hself : g.kind? x = some (.ofStep step)
      · rw [firstStep?_cons_self hself]
        by_cases hid : x = id
        · subst hid
          simp [hself, hx]
        · simp [hself, hid, Ne.symm hid]
      · rw [firstStep?_cons_of_ne hself]
        by_cases hid : x = id
        · subst hid
          simp [hself]
        · simp [hself, hid, Ne.symm hid]

/-- A step that is not reported is the one that is kept. -/
theorem firstStep?_or_duplicate (nested : Bool) (hnodup : ids.Nodup) (hid : id ∈ ids)
    (hkind : g.kind? id = some (.ofStep step)) :
    g.firstStep? ids step = some id ∨
      .about id (.duplicateStep step) ∈ g.branchFindings nested [] ids := by
  rw [duplicate_mem_branchFindings hnodup]
  by_cases hfirst : g.firstStep? ids step = some id
  · exact .inl hfirst
  · exact .inr ⟨hid, hkind, .inr hfirst⟩

/-- Every logic block in a branch is reported. -/
theorem nested_mem_branchFindings (hid : id ∈ ids) (hlogic : g.isLogicBlock id = true) :
    .about id .nestedControl ∈ g.branchFindings true seen ids := by
  induction ids generalizing seen with
  | nil => cases hid
  | cons x rest ih =>
      rw [branchFindings_cons, List.mem_append]
      rcases List.mem_cons.mp hid with rfl | hrest
      · left
        have hnone : (g.kind? id).bind BlockKind.step? = none := by
          unfold isLogicBlock at hlogic
          cases hkind : g.kind? id with
          | none => rfl
          | some kind =>
              rw [hkind] at hlogic
              cases kind <;> first | rfl | cases hlogic
        rw [linkFindings, hnone]
        simp [hlogic]
      · exact .inr (ih hrest)

/-! ## Branches without findings -/

theorem isLogicBlock_of_step (h : g.kind? id = some (.ofStep step)) : g.isLogicBlock id = false := by
  rw [isLogicBlock, h]
  cases step <;> rfl

/-- Nothing is found about a block of a branch when its step was not met before and, inside a block,
it is not a logic block. -/
theorem linkFindings_eq_nil_iff : g.linkFindings nested seen id = [] ↔
    (∀ step ∈ (g.kind? id).bind BlockKind.step?, step ∉ seen) ∧
      (nested = true → g.isLogicBlock id = false) := by
  rw [linkFindings]
  cases hid : (g.kind? id).bind BlockKind.step? with
  | none => cases nested <;> simp
  | some step => simp [isLogicBlock_of_step (kind_bind_step?.mp hid)]

/-- Nothing is found about a branch when no step is there twice and, inside a block, no other
logic block is there. -/
theorem branchFindings_eq_nil_iff : g.branchFindings nested seen ids = [] ↔
    ((g.stepKinds ids).Nodup ∧ ∀ step ∈ g.stepKinds ids, step ∉ seen) ∧
      (nested = true → ∀ id ∈ ids, g.isLogicBlock id = false) := by
  induction ids generalizing seen with
  | nil => simp [branchFindings, stepKinds]
  | cons id rest ih =>
      have hkinds : g.stepKinds (id :: rest) =
          ((g.kind? id).bind BlockKind.step?).toList ++ g.stepKinds rest := by
        rw [stepKinds, List.filterMap_cons]
        cases (g.kind? id).bind BlockKind.step? <;> rfl
      rw [branchFindings_cons, List.append_eq_nil_iff, linkFindings_eq_nil_iff, ih, hkinds]
      simp only [mem_met, List.forall_mem_cons, ← kind_bind_step?]
      cases (g.kind? id).bind BlockKind.step? with
      | none => simp [imp_and, and_left_comm]
      | some step =>
          simp only [Option.mem_def, Option.some.injEq, forall_eq', Option.toList_some,
            List.singleton_append, List.nodup_cons, List.forall_mem_cons, not_or]
          constructor
          · rintro ⟨⟨hnew, hself⟩, ⟨hnodup, hrest⟩, hothers⟩
            exact ⟨⟨⟨fun hmem => (hrest step hmem).2 rfl, hnodup⟩, hnew,
              fun other hother => (hrest other hother).1⟩, fun h => ⟨hself h, hothers h⟩⟩
          · rintro ⟨⟨⟨hapart, hnodup⟩, hnew, hrest⟩, hplain⟩
            refine ⟨⟨hnew, fun h => (hplain h).1⟩, ⟨hnodup, fun other hother => ?_⟩,
              fun h => (hplain h).2⟩
            exact ⟨hrest other hother, fun heq => hapart (heq ▸ hother)⟩

/-- No step is missing when both ends of a movement are there, or at the top level none at all. -/
theorem missingSteps_eq_nil_iff {owner : Option BlockId} : g.missingSteps owner ids = [] ↔
    (owner = none ∧ g.stepKinds ids = []) ∨
      (.pick ∈ g.stepKinds ids ∧ .place ∈ g.stepKinds ids) := by
  unfold missingSteps
  dsimp only
  split
  next hnone =>
    rw [Bool.and_eq_true, List.isEmpty_iff, Option.isNone_iff_eq_none] at hnone
    exact iff_of_true rfl (.inl ⟨hnone.2, hnone.1⟩)
  next hneeded =>
    rw [Bool.and_eq_true, List.isEmpty_iff, Option.isNone_iff_eq_none, And.comm] at hneeded
    simp [hneeded]

end TaskDiagram.Graph
