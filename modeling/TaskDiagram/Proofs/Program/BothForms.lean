import TaskDiagram.Proofs.Graph.Loading.Pieces
import TaskDiagram.Proofs.Program.ConversationForm
import TaskDiagram.Proofs.Program.Drafts

/-! # Loading the two forms of a program

The conversation form has a record for every step, the stored form only for the steps that are
there, and a step record stands for a block whether anything is set in it or not. So what is loaded
from the conversation form has one block more for every step that is missing, and is otherwise the
same: no other record that was filled in is seen in the diagram.
-/

namespace TaskDiagram

open Control.filled (fill)

/-! ## Steps that are missing and steps that are blank -/

/-- The number of steps that are not there. -/
def Steps.missing (s : Steps) : Nat := StepKind.all.countP fun kind => (s.get kind).isNone

/-- Something is set in every step that is there. -/
def Steps.NoneBlank (s : Steps) : Prop := ∀ kind, ∀ r ∈ s.get kind, r.isBlank = false

theorem Steps.get_fill (s : Steps) (kind : StepKind) :
    (fill s).get kind = some ((s.get kind).getD .blank) := by
  cases kind <;> rfl

/-- Where no step is missing there is nothing to fill in. -/
theorem Steps.fill_eq_of_missing {s : Steps} (h : s.missing = 0) : fill s = s := by
  ext kind : 1
  have hall : kind ∈ StepKind.all := by cases kind <;> decide
  have hthere : s.get kind ≠ none := by simpa using List.countP_eq_zero.mp h kind hall
  obtain ⟨r, hr⟩ := Option.ne_none_iff_exists'.mp hthere
  rw [get_fill, hr, Option.getD_some]

/-- Leaving out blank steps takes out again what was filled in. -/
theorem Steps.compact_fill {s : Steps} (h : s.NoneBlank) : (fill s).compact = s := by
  ext kind : 1
  rw [Steps.get_compact, get_fill]
  cases hr : s.get kind with
  | none => rfl -- The blank step that was filled in goes again.
  | some r => simp [Reference.compact, h kind r hr]

/-- Each step that is filled in is one more block. -/
theorem Steps.blockCount_fill (s : Steps) : (fill s).blockCount = s.blockCount + s.missing := by
  have hstep : ∀ kind, Tree.total (((fill s).get kind).map (Tree.ofStep kind)).toList =
      Tree.total ((s.get kind).map (Tree.ofStep kind)).toList +
        if (s.get kind).isNone then 1 else 0 := by
    intro kind
    rw [get_fill]
    cases s.get kind with
    | none => rfl
    | some r => rfl
  rw [blockCount_eq, blockCount_eq, missing]
  simp only [StepKind.all, List.map_cons, List.map_nil, List.sum_cons, List.sum_nil,
    List.countP_cons, List.countP_nil, hstep]
  omega

/-! ## Controls -/

namespace Control

/-- The control with a blank step wherever one is missing. -/
def padded (c : Control) : Control :=
  { c with
    otherwise := some (fill (c.otherwise.getD .empty))
    steps := fill c.steps }

/-- The control without the steps in which nothing is set. -/
def withoutBlankSteps (c : Control) : Control :=
  { c with
    otherwise := c.otherwise.map Steps.compact
    steps := c.steps.compact }

/-- The number of steps that are missing where loading looks for them: nowhere in a control in
which nothing is set, and in the second branch when the block of the control has one. -/
def missing (c : Control) : Nat :=
  match c.kind? with
  | some kind => c.steps.missing +
      if kind = .whenOtherwise then (c.otherwise.getD .empty).missing else 0
  | none => if c.type = none ∧ c.isUnset then 0 else c.steps.missing

/-- Something is set in every step of the control and of its second branch. -/
structure NoneBlank (c : Control) : Prop where
  steps : c.steps.NoneBlank
  otherwise : ∀ s ∈ c.otherwise, s.NoneBlank

/-- Blank steps have no leaves that are set. -/
theorem leaf?_padded (c : Control) (leaf : ControlLeaf) : c.padded.leaf? leaf = c.leaf? leaf := by
  cases leaf with
  | step kind leaf => exact Steps.leaf?_fill c.steps kind leaf
  | otherwise kind leaf =>
      exact (Steps.leaf?_fill _ kind leaf).trans (Steps.leaf?_getD c.otherwise kind leaf)
  | _ => rfl

theorem leaf?_withoutBlankSteps (c : Control) (leaf : ControlLeaf) :
    c.withoutBlankSteps.leaf? leaf = c.leaf? leaf := by
  cases leaf with
  | step kind leaf => exact Steps.leaf?_compact c.steps kind leaf
  | otherwise kind leaf =>
      have hcompact := fun s : Steps => s.leaf?_compact kind leaf
      rw [leaf?, withoutBlankSteps, Option.bind_map]
      exact congrArg _ (funext hcompact)
  | _ => rfl

/-! Loading tells controls apart by their leaves and by the steps that are there. -/

/-- A control is loaded like what is stored of it. -/
theorem alike_stored (c : Control) : c.stored.Alike c :=
  .of_leaf? c.leaf?_stored (fun _ => rfl) fun _ => c.otherwise_stored

/-- The conversation form of a control is loaded like the control with blank steps. -/
theorem alike_filled (c : Control) : c.filled.Alike c.padded :=
  .of_leaf? (fun leaf => by rw [leaf?_filled, leaf?_padded]) (fun _ => rfl) fun _ => rfl

/-- A control in which no step is missing is loaded like the control with blank steps. -/
theorem alike_padded {c : Control} (h : c.missing = 0) : c.padded.Alike c := by
  refine .of_leaf? c.leaf?_padded (fun hset => ?_) fun hkind => ?_
  · have hset : ¬ (c.type = none ∧ c.isUnset) := by
      rwa [isUnset_congr c.leaf?_padded] at hset
    have hsteps : c.steps.missing = 0 := by
      rw [missing, if_neg hset] at h
      split at h <;> omega
    exact Steps.fill_eq_of_missing hsteps
  · have hkind : c.kind? = some .whenOtherwise := hkind
    simp only [missing, hkind, if_true] at h
    exact Steps.fill_eq_of_missing (Nat.eq_zero_of_add_eq_zero_left h)

/-- Without its blank steps the conversation form is loaded like the control, if no step of that was
blank. -/
theorem alike_withoutBlankSteps {c : Control} (h : c.NoneBlank) :
    c.filled.withoutBlankSteps.Alike c := by
  refine .of_leaf? (fun leaf => by rw [leaf?_withoutBlankSteps, leaf?_filled])
    (fun _ => Steps.compact_fill h.steps) fun _ => ?_
  have hotherwise : (c.otherwise.getD .empty).NoneBlank := by
    cases hsecond : c.otherwise with
    | none => intro kind; cases kind <;> exact nofun
    | some s => exact h.otherwise s hsecond
  exact Steps.compact_fill hotherwise

/-- Each step that is filled in where loading looks for it is one more block. -/
theorem blockCount_padded (c : Control) : c.padded.blockCount = c.blockCount + c.missing := by
  have hunset : c.padded.isUnset = c.isUnset := isUnset_congr c.leaf?_padded
  cases hkind : c.kind? with
  | none =>
      -- Filling in sets no leaf, so a control that is skipped is still skipped.
      have hpadded : c.padded.kind? = none := hkind
      rw [blockCount_of_no_kind hkind, blockCount_of_no_kind hpadded, hunset, missing, hkind]
      change (if c.type = none ∧ c.isUnset then 0 else (fill c.steps).blockCount) = _
      rw [Steps.blockCount_fill]
      split <;> rfl
  | some kind =>
      have hpadded : c.padded.kind? = some kind := hkind
      have hsteps : c.padded.steps.blockCount = c.steps.blockCount + c.steps.missing :=
        c.steps.blockCount_fill
      have hsecond : (c.padded.second kind).blockCount = (c.second kind).blockCount +
          if kind = .whenOtherwise then (c.otherwise.getD .empty).missing else 0 := by
        unfold second
        split
        next => exact Steps.blockCount_fill _
        next => rfl
      have hguard : c.padded.guard? kind = c.guard? kind := rfl
      rw [blockCount_of_kind hkind, blockCount_of_kind hpadded, hguard, hsteps, hsecond, missing,
        hkind]
      dsimp only
      omega

/-- A chain of controls is loaded into the same pieces as what is stored of it. -/
theorem samePieces_storedChain (cs : List Control) : SamePieces (storedChain cs) cs where
  trees_eq := filterMap_storedChain (fun c => c.alike_stored.tree_eq) rfl cs
  strays_eq := flatMap_storedChain (fun c => c.alike_stored.strays_eq) rfl cs

end Control

/-! ## Programs -/

namespace Program

/-- The program with a blank step wherever one is missing. -/
def padded (p : Program) : Program := ⟨fill p.steps, p.controls.map Control.padded⟩

/-- The program without the steps in which nothing is set. -/
def withoutBlankSteps (p : Program) : Program :=
  ⟨p.steps.compact, p.controls.map Control.withoutBlankSteps⟩

/-- The number of steps that are missing where loading looks for them. -/
def missing (p : Program) : Nat := p.steps.missing + (p.controls.map Control.missing).sum

/-- Something is set in every step. -/
structure NoneBlank (p : Program) : Prop where
  steps : p.steps.NoneBlank
  controls : ∀ c ∈ p.controls, c.NoneBlank

/-- Loading the programs under the standard grammar makes the same diagram, up to ids and
coordinates. -/
def LoadAlike (p q : Program) : Prop := ∀ layout layout',
  (Graph.ofProgram .standard layout p).isIsomorphic (Graph.ofProgram .standard layout' q) = true

/-- Programs are loaded alike when their trees are the same in some order. -/
theorem loadAlike_iff {p q : Program} : LoadAlike p q ↔ p.trees.Perm q.trees :=
  ⟨fun h => Graph.isIsomorphic_ofProgram_iff.mp (h .standard .standard),
    fun h _ _ => Graph.isIsomorphic_ofProgram_iff.mpr h⟩

/-- A program is loaded into the same trees as what is stored of it. -/
theorem trees_stored (p : Program) : p.stored.trees.Perm p.trees :=
  perm_of_samePieces rfl (Control.samePieces_storedChain p.controls)

/-- The control that is filled in where there is none is not seen in a diagram. -/
theorem samePieces_filled (p : Program) :
    Control.SamePieces p.filled.controls (p.controls.map Control.filled) := by
  obtain ⟨steps, controls⟩ := p
  cases controls <;> exact ⟨rfl, rfl⟩

/-- The conversation form of a program is loaded into the trees of the program with blank steps. -/
theorem trees_filled (p : Program) : p.filled.trees.Perm p.padded.trees :=
  perm_of_samePieces rfl
    (p.samePieces_filled.trans (Control.samePieces_map fun c _ => c.alike_filled))

theorem trees_padded {p : Program} (h : p.missing = 0) : p.padded.trees.Perm p.trees := by
  obtain ⟨hsteps, hsum⟩ := Nat.add_eq_zero_iff.mp h
  have hcontrols : ∀ c ∈ p.controls, c.missing = 0 := fun c hc =>
    List.sum_eq_zero_iff.mp hsum c.missing (List.mem_map_of_mem hc)
  exact perm_of_samePieces (Steps.fill_eq_of_missing hsteps)
    (Control.samePieces_map_self fun c hc => Control.alike_padded (hcontrols c hc))

/-- Leaving out blank steps takes out again what is seen in a diagram of what was filled in. -/
theorem trees_withoutBlankSteps {p : Program} (h : p.NoneBlank) :
    p.filled.withoutBlankSteps.trees.Perm p.trees := by
  obtain ⟨steps, controls⟩ := p
  refine perm_of_samePieces (Steps.compact_fill h.steps) ?_
  cases controls with
  | nil => exact ⟨rfl, rfl⟩
  | cons first rest =>
      rw [withoutBlankSteps, filled, List.map_map]
      apply Control.samePieces_map_self
      exact fun c hc => Control.alike_withoutBlankSteps (h.controls c hc)

/-- Every step that is missing where loading looks for it is one block more in the conversation
form. -/
theorem total_padded (p : Program) :
    Tree.total p.padded.trees = Tree.total p.trees + p.missing := by
  have hcontrols : (p.padded.controls.map Control.blockCount).sum =
      (p.controls.map Control.blockCount).sum + (p.controls.map Control.missing).sum := by
    rw [padded, List.map_map, ← List.sum_map_add]
    exact congrArg List.sum (List.map_congr_left fun c _ => c.blockCount_padded)
  have hsteps : p.padded.steps.blockCount = p.steps.blockCount + p.steps.missing :=
    p.steps.blockCount_fill
  rw [total_trees, total_trees, hcontrols, hsteps, missing]
  omega

/-! Reading changes types alone, and blank steps are put in and left out whatever the types are. -/

theorem reread_filled (p : Program) : p.filled.reread = p.reread.filled := by
  have hcontrol : ∀ c : Control, c.filled.reread = c.reread.filled := by
    rintro ⟨type, times, event, otherwise, steps⟩
    cases event <;> rfl
  obtain ⟨steps, controls⟩ := p
  cases controls with
  | nil => rfl
  | cons first rest => simp [reread, filled, hcontrol]

theorem reread_padded (p : Program) : p.padded.reread = p.reread.padded := by
  rw [padded, reread, reread, padded, List.map_map, List.map_map]
  rfl

theorem noneBlank_reread {p : Program} (h : p.NoneBlank) : p.reread.NoneBlank := by
  refine ⟨h.steps, fun c hc => ?_⟩
  obtain ⟨other, hother, rfl⟩ := List.mem_map.mp hc
  exact ⟨(h.controls other hother).steps, (h.controls other hother).otherwise⟩

/-- What is loaded from the conversation form is what is loaded from the stored form of the program
with a blank step wherever one is missing. So both forms load alike exactly when no step is missing
where loading looks for it, and for a program without blank steps they do once the blank steps are
left out of what is read from the conversation form. -/
theorem both_forms_load_alike_up_to_missing_steps (p : Program) :
    ∃ full stored padded, ofDocument p.nullableDocument = .ok full ∧
      ofDocument p.graphicDocument = .ok stored ∧ ofDocument p.padded.graphicDocument = .ok padded ∧
      LoadAlike full padded ∧ (LoadAlike full stored ↔ p.reread.missing = 0) ∧
      (p.NoneBlank → LoadAlike full.withoutBlankSteps stored) := by
  refine ⟨p.filled.reread, p.reread.stored, p.padded.reread.stored, p.filled.read_envelope_toJson,
    p.read_graphicDocument, p.padded.read_graphicDocument, ?_, ?_, ?_⟩
  · rw [loadAlike_iff, reread_filled, reread_padded]
    exact (trees_filled _).trans (trees_stored _).symm
  · rw [loadAlike_iff, reread_filled]
    constructor
    · intro h
      -- The blocks that were filled in are too many, so there are none.
      have hpadded := Tree.total_perm
        ((trees_filled p.reread).symm.trans (h.trans (trees_stored p.reread)))
      rw [total_padded] at hpadded
      omega
    · intro h
      exact (trees_filled _).trans ((trees_padded h).trans (trees_stored _).symm)
  · intro h
    rw [loadAlike_iff, reread_filled]
    exact (trees_withoutBlankSteps (noneBlank_reread h)).trans (trees_stored _).symm

/-- A pick and a place with no processing between them. -/
def cupToTray : Program := ⟨⟨some ⟨some "cup", some 1⟩, none, some ⟨some "tray", some 2⟩⟩, []⟩

/-- The conversation form has a blank processing where none is, and it is loaded as a block. -/
theorem blank_processing_is_loaded :
    ∃ full stored, cupToTray.NoneBlank ∧ ofDocument cupToTray.nullableDocument = .ok full ∧
      ofDocument cupToTray.graphicDocument = .ok stored ∧
      (Graph.ofProgram .standard .standard full).size = 5 ∧
      (Graph.ofProgram .standard .standard stored).size = 4 ∧
      (Graph.ofProgram .standard .standard full).isIsomorphic
        (Graph.ofProgram .standard .standard stored) = false := by
  have hset : cupToTray.NoneBlank := by
    refine ⟨fun kind r hr => ?_, fun c hc => absurd hc List.not_mem_nil⟩
    cases kind <;> cases hr <;> rfl
  exact ⟨cupToTray.filled.reread, cupToTray.reread.stored, hset,
    cupToTray.filled.read_envelope_toJson, cupToTray.read_graphicDocument,
    by decide +kernel, by decide +kernel, by decide +kernel⟩

end Program

end TaskDiagram
