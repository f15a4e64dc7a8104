import TaskDiagram.Graph.ToProgram
import TaskDiagram.Proofs.Graph.Trees

/-! # Saving sees only the trees

The program of a diagram is a function of the trees under its roots, in their order:
ids, coordinates, recorded findings and the order in which blocks were made leave no
trace in it.
-/

namespace TaskDiagram

namespace Tree

def textField? (t : Tree) (name : String) : Option String :=
  (t.fields.get? name).bind FieldValue.asText

def intField? (t : Tree) (name : String) : Option Int64 :=
  (t.fields.get? name).bind FieldValue.asInt

/-- The reference in a socket; blank when the socket is empty. -/
def readReference (t : Tree) (socket : SocketName) : Reference :=
  match t.child? socket with
  | some r => ⟨r.textField? fieldName, r.intField? fieldId⟩
  | none => .blank

/-- The first step of a kind among the links of a branch. -/
def readStep (branch : List Tree) (step : StepKind) : Option Reference :=
  (branch.find? (·.kind == .ofStep step)).map (·.readReference (.ofEntity step.entity))

/-- The steps that the links of a branch stand for. -/
def readSteps (branch : List Tree) : Steps :=
  ⟨readStep branch .pick, readStep branch .processing, readStep branch .place⟩

/-- The event in the socket of a logic block. -/
def readEvent (t : Tree) : Event :=
  match t.child? .when with
  | none => .blank
  | some event =>
      match event.kind with
      | .sensorSignal => ⟨some .sensor, none⟩
      | .humanFeedback => ⟨some .human, none⟩
      | .findObject =>
          ⟨some .findObject, (event.child? .object).map fun _ => event.readReference .object⟩
      | _ => .blank

/-- The control that a logic block stands for. -/
def readControl (t : Tree) : Option Control :=
  (Graph.controlType? t.kind).map fun type => {
    type := some type
    times := if t.kind == .repeated then t.intField? fieldTimes else none
    event := if t.kind == .when || t.kind == .whenOtherwise then some t.readEvent else none
    otherwise :=
      if t.kind == .whenOtherwise then some (readSteps (t.branch .otherwise)) else none
    steps := readSteps (t.branch .body) }

/-- The links of a chain before its first logic block. -/
def leading (t : Tree) : List Tree := t.chain.takeWhile (!·.kind.isLogic)

/-- The links of a chain from its first logic block on. -/
def controls (t : Tree) : List Tree := t.chain.dropWhile (!·.kind.isLogic)

/-- The trees that make up the program; `taken` tells whether one with controls has been met. -/
def counted (grammar : Grammar) : (taken : Bool) → List Tree → List Tree
  | _, [] => []
  | taken, t :: rest =>
      if !grammar.isRoot t.kind || (taken && !t.controls.isEmpty) then counted grammar taken rest
      else t :: counted grammar (taken || !t.controls.isEmpty) rest

/-- The program that trees stand for. -/
def toProgram (grammar : Grammar) (trees : List Tree) : Program :=
  let top := counted grammar false trees
  ⟨readSteps (top.flatMap leading), (top.flatMap controls).filterMap readControl⟩

end Tree

namespace Graph

variable {g : Graph} {lo hi : Nat}

/-- A reference is read from what is shown in the socket. -/
theorem readReference_of_rel {t : Tree} {id : Nat} {socket : SocketName}
    (h : Option.Rel (g.Shows lo hi) (t.child? socket) (g.child? id socket)) :
    g.readReference id socket = t.readReference socket := by
  unfold readReference Tree.readReference
  rcases rel_cases h with ⟨ht, hc⟩ | ⟨child, c, ht, hc, hshows⟩
  · rw [ht, hc]
    rfl
  · obtain ⟨b, hb, -, hfields⟩ := hshows.block
    rw [ht, hc, Option.bind_some, hb]
    simp only [Block.textField?, Block.intField?, Block.field?, hfields]
    rfl

namespace ShowsLink

variable {t : Tree} {id : Nat}

/-- The reference of a block is that of the tree it shows. -/
theorem readReference (h : g.ShowsLink lo hi t id) (socket : SocketName) (hs : socket ≠ .next) :
    g.readReference id socket = t.readReference socket :=
  readReference_of_rel (h.child? socket hs)

/-- A branch of a block shows the branch of the tree. -/
theorem branch (hg : g.IsForest) (h : g.ShowsLink lo hi t id) (socket : SocketName)
    (hs : socket ≠ .next) :
    List.Forall₂ (g.ShowsLink lo hi) (t.branch socket) (g.branch id socket) := by
  unfold Tree.branch Graph.branch
  rcases rel_cases (h.child? socket hs) with ⟨ht, hc⟩ | ⟨child, c, ht, hc, hshows⟩
  · rw [ht, hc]
    exact .nil
  · rw [ht, hc]
    exact hg.forall₂_chain hshows

end ShowsLink

variable {ts : List Tree} {ids : List BlockId}

/-- The first step of a kind is found at the same place on both sides. -/
theorem readStep_eq (h : List.Forall₂ (g.ShowsLink lo hi) ts ids) (step : StepKind) :
    g.readStep ids step = Tree.readStep ts step := by
  unfold readStep Tree.readStep
  induction h with
  | nil => rfl
  | cons hlink _ ih =>
      rename_i t id _ _ _
      by_cases hkind : t.kind = .ofStep step
      · have hsocket : SocketName.ofEntity step.entity ≠ .next := by cases step <;> decide
        simp [hlink.kind, hkind, hlink.readReference _ hsocket]
      · simpa [hlink.kind, hkind] using ih

theorem readSteps_eq (h : List.Forall₂ (g.ShowsLink lo hi) ts ids) :
    g.readSteps ids = Tree.readSteps ts := by
  simp only [readSteps, Tree.readSteps, readStep_eq h]

/-- The event of a block is that of the tree it shows. -/
theorem readEvent_eq {t : Tree} {id : Nat} (h : g.ShowsLink lo hi t id) :
    g.readEvent id = t.readEvent := by
  unfold readEvent Tree.readEvent
  rcases rel_cases (h.child? .when (by decide)) with ⟨ht, hc⟩ | ⟨child, c, ht, hc, hshows⟩
  · rw [ht, hc]
  · rw [ht, hc]
    simp only [hshows.kind]
    cases child.kind with
    | findObject =>
        have hobject := hshows.child? .object
        have hread := readReference_of_rel hobject
        rcases rel_cases hobject with ⟨ho, hoc⟩ | ⟨_, _, ho, hoc, _⟩
        · simp [ho, hoc]
        · simp [ho, hoc, hread]
    | _ => rfl

/-- The control of a block is that of the tree it shows. -/
theorem readControl_eq (hg : g.IsForest) {t : Tree} {id : Nat} (h : g.ShowsLink lo hi t id) :
    g.readControl id = t.readControl := by
  obtain ⟨b, hb, hfields⟩ := Option.map_eq_some_iff.mp h.fields
  have hkind : b.kind = t.kind := by
    have := h.kind
    rw [kind?, hb] at this
    exact Option.some.inj this
  have hbody := readSteps_eq (h.branch hg .body (by decide))
  have hotherwise := readSteps_eq (h.branch hg .otherwise (by decide))
  unfold readControl Tree.readControl
  simp only [hb, Option.bind_eq_bind, Option.bind_some, hkind, readEvent_eq h, hbody, hotherwise,
    Block.intField?, Block.field?, hfields, Tree.intField?]
  cases controlType? t.kind <;> rfl

theorem isLogicBlock_eq {t : Tree} {id : Nat} (h : g.ShowsLink lo hi t id) :
    g.isLogicBlock id = t.kind.isLogic := by
  simp [isLogicBlock, h.kind]

/-- The links before the first logic block show those of the tree. -/
theorem forall₂_takeWhile (h : List.Forall₂ (g.ShowsLink lo hi) ts ids) :
    List.Forall₂ (g.ShowsLink lo hi) (ts.takeWhile (!·.kind.isLogic))
      (ids.takeWhile (!g.isLogicBlock ·)) := by
  induction h with
  | nil => exact .nil
  | cons hlink _ ih =>
      rename_i t id _ _ _
      by_cases hlogic : t.kind.isLogic <;> simp [isLogicBlock_eq hlink, hlogic, hlink, ih]

/-- The links from the first logic block on show those of the tree. -/
theorem forall₂_dropWhile (h : List.Forall₂ (g.ShowsLink lo hi) ts ids) :
    List.Forall₂ (g.ShowsLink lo hi) (ts.dropWhile (!·.kind.isLogic))
      (ids.dropWhile (!g.isLogicBlock ·)) := by
  induction h with
  | nil => exact .nil
  | cons hlink hrest ih =>
      rename_i t id _ _
      by_cases hlogic : t.kind.isLogic
      · simpa [isLogicBlock_eq hlink, hlogic] using ⟨hlink, hrest⟩
      · simpa [isLogicBlock_eq hlink, hlogic] using ih

/-- The steps and controls of a chain look like those of a tree. -/
structure ShowsRoot (g : Graph) (lo hi : Nat) (t : Tree) (chain : RootChain) : Prop where
  steps : List.Forall₂ (g.ShowsLink lo hi) t.leading chain.steps
  controls : List.Forall₂ (g.ShowsLink lo hi) t.controls chain.controls

/-- The chain of a root looks like the chain of its tree. -/
theorem showsRoot (hg : g.IsForest) {t : Tree} {id : Nat} (h : g.Shows lo hi t id) :
    g.ShowsRoot lo hi t (g.rootChain id) :=
  ⟨forall₂_takeWhile (hg.forall₂_chain h), forall₂_dropWhile (hg.forall₂_chain h)⟩

theorem ShowsRoot.isEmpty_controls {t : Tree} {chain : RootChain} (h : g.ShowsRoot lo hi t chain) :
    chain.controls.isEmpty = t.controls.isEmpty := by
  rw [Bool.eq_iff_iff, List.isEmpty_iff_length_eq_zero, List.isEmpty_iff_length_eq_zero,
    h.controls.length_eq]

/-- The chains that count are those of the trees that count. -/
theorem forall₂_topLevelOf (hg : g.IsForest) (taken : Bool)
    (h : List.Forall₂ (g.Shows lo hi) ts ids) :
    List.Forall₂ (g.ShowsRoot lo hi) (Tree.counted g.grammar taken ts)
      (g.topLevelOf taken ids).chains := by
  induction h generalizing taken with
  | nil => exact .nil
  | cons hshows _ ih =>
      rename_i t id ts ids _
      have hroot := showsRoot hg hshows
      rw [topLevelOf, hshows.kind, Tree.counted]
      simp only [hroot.isEmpty_controls]
      split
      · exact ih taken
      · exact .cons hroot (ih _)

theorem forall₂_flatMap {α β γ δ : Type} {R : α → β → Prop} {S : γ → δ → Prop} {f : α → List γ}
    {f' : β → List δ} (hf : ∀ a b, R a b → List.Forall₂ S (f a) (f' b)) {as : List α}
    {bs : List β} (h : List.Forall₂ R as bs) : List.Forall₂ S (as.flatMap f) (bs.flatMap f') :=
  List.rel_flatMap h fun _ _ hab => hf _ _ hab

/-- The program of a diagram is the program of the trees under its roots. -/
theorem IsForest.toProgram_eq (hg : g.IsForest) :
    g.toProgram = Tree.toProgram g.grammar g.forest := by
  have htop := forall₂_topLevelOf hg false hg.forall₂_forest
  have hsteps := forall₂_flatMap (fun _ _ h => ShowsRoot.steps h) htop
  have hcontrols := forall₂_flatMap (fun _ _ h => ShowsRoot.controls h) htop
  have hread : ∀ (ts : List Tree) (ids : List BlockId),
      List.Forall₂ (g.ShowsLink 0 g.nextId) ts ids →
      ids.filterMap g.readControl = ts.filterMap Tree.readControl := by
    intro ts ids h
    induction h with
    | nil => rfl
    | cons hlink _ ih => rw [List.filterMap_cons, List.filterMap_cons, readControl_eq hg hlink, ih]
  unfold toProgram Tree.toProgram topLevel TopLevel.stepBlocks TopLevel.controlBlocks
  simp only
  rw [readSteps_eq hsteps, hread _ _ hcontrols]

end Graph

end TaskDiagram
