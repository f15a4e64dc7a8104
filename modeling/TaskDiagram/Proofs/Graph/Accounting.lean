import TaskDiagram.Proofs.Graph.Branches
import TaskDiagram.Proofs.Graph.Edited
import TaskDiagram.Proofs.Graph.TopLevel

/-! # Saving accounts for every block

Under the standard grammar a step either fills its place in the saved program or is
reported, and a logic block either becomes a control or is reported: as a step that
stands there a second time, as a logic block in a branch, or with its whole chain. The
findings and the saved program are computed by walks of their own, which agree on the
order of blocks and on which of them count.
-/

namespace TaskDiagram

/-- Where steps stand in a program: at the top level, or in a branch of the control with an
index. -/
inductive StepPlace where
  | top
  | branch (index : Nat) (socket : SocketName)
  deriving DecidableEq, Repr

/-- The steps that stand at a place of a program. -/
def Program.stepsAt? (p : Program) : StepPlace → Option Steps
  | .top => some p.steps
  | .branch index .body => p.controls[index]?.map (·.steps)
  | .branch index .otherwise => p.controls[index]?.bind (·.otherwise)
  | .branch _ _ => none

theorem getElem?_filterMap_of_isSome {α β : Type} {f : α → Option β} {l : List α}
    (h : ∀ a ∈ l, (f a).isSome) (index : Nat) : (l.filterMap f)[index]? = l[index]?.bind f := by
  induction l generalizing index with
  | nil => simp
  | cons a rest ih =>
      obtain ⟨b, hb⟩ := Option.isSome_iff_exists.mp (h a List.mem_cons_self)
      rw [List.filterMap_cons_some hb]
      cases index with
      | zero => simp [hb]
      | succ index => simpa using ih (fun a ha => h a (List.mem_cons_of_mem _ ha)) index

namespace Graph

/-- The blocks from which the steps at a place are read. -/
def blocksAt (g : Graph) : StepPlace → List BlockId
  | .top => g.topLevel.stepBlocks
  | .branch index socket =>
      (g.topLevel.controlBlocks[index]?.map fun owner => g.branch owner socket).getD []

/-- A step fills a place: it is the first of its kind there, and the program holds what it refers
to. -/
structure SavedStep (g : Graph) (id : BlockId) (step : StepKind) (place : StepPlace) : Prop where
  first : g.firstStep? (g.blocksAt place) step = some id
  held : ∃ s, g.toProgram.stepsAt? place = some s ∧
    s.get step = some (g.readReference id (.ofEntity step.entity))

/-- A logic block is the control with an index. -/
structure SavedControl (g : Graph) (id : BlockId) (index : Nat) : Prop where
  stands : g.topLevel.controlBlocks[index]? = some id
  held : ∃ c, g.readControl id = some c ∧ g.toProgram.controls[index]? = some c

/-- Validation finds something about a block as it stands. Findings recorded before, which
validation hands on unseen, do not count. -/
def Flagged (g : Graph) (id : BlockId) (kind : WarningKind) : Prop :=
  .about id kind ∈ g.found none

/-- A block that is not saved: it is, or lies below, a logic block reported in a branch, or the
chain of its root is reported. -/
inductive LeftOut (g : Graph) (id : BlockId) : Prop
  | nested (n : Nat) (ancestor : BlockId) (hclimb : g.climb n id = some ancestor)
      (hflagged : g.Flagged ancestor .nestedControl)
  | stray (n : Nat) (root : BlockId) (kind : BlockKind) (hclimb : g.climb n id = some root)
      (hroot : root ∈ g.roots) (hflagged : g.Flagged root (.orphanChain kind))

variable {g : Graph} {id owner root : BlockId} {kind : BlockKind} {socket : SocketName}
  {step : StepKind} {place : StepPlace} {index : Nat}

/-- With a block all below it is left out. -/
theorem LeftOut.below {n : Nat} (h : g.LeftOut owner) (hclimb : g.climb n id = some owner) :
    g.LeftOut id := by
  cases h with
  | nested m ancestor hup hflagged =>
      exact .nested (n + m) ancestor (by rw [climb_add, hclimb]; exact hup) hflagged
  | stray m root kind hup hroot hflagged =>
      exact .stray (n + m) root kind (by rw [climb_add, hclimb]; exact hup) hroot hflagged

theorem SavedControl.inj {other : BlockId} (hsaved : g.SavedControl id index)
    (hother : g.SavedControl other index) : other = id :=
  Option.some.inj (hother.stands.symm.trans hsaved.stands)

theorem SavedStep.inj {other : BlockId} (hsaved : g.SavedStep id step place)
    (hother : g.SavedStep other step place) : other = id :=
  Option.some.inj (hother.first.symm.trans hsaved.first)

theorem SavedStep.kind_eq (h : g.SavedStep id step place) : g.kind? id = some (.ofStep step) :=
  kind_of_firstStep? h.first

/-! ## Where steps and logic blocks stand -/

theorem isLogicBlock_eq_of_kind (hkind : g.kind? id = some kind) :
    g.isLogicBlock id = kind.isLogic := by
  simp [isLogicBlock, hkind]

/-- The head of the chain in a branch sits in the socket of the branch. -/
theorem IsForest.head_of_branch (h : g.IsForest) (hne : socket ≠ .next)
    (hid : id ∈ g.branch owner socket) :
    ∃ head, g.child? owner socket = some head ∧ g.IsHead head ∧ id ∈ g.chain head := by
  cases hhead : g.child? owner socket with
  | none => simp [branch_of_empty hhead] at hid
  | some head =>
      rw [branch_of_child? hhead] at hid
      exact ⟨head, rfl, h.isHead_of_child? hne hhead, hid⟩

theorem IsForest.climb_of_mem_branch (h : g.IsForest) (hne : socket ≠ .next)
    (hid : id ∈ g.branch owner socket) : ∃ n, g.climb n id = some owner := by
  obtain ⟨head, hc, hhead, hmem⟩ := h.head_of_branch hne hid
  obtain ⟨n, hn⟩ := h.climb_of_mem_chain hhead.live id hmem
  exact ⟨n + 1, climb_succ_eq_some.mpr ⟨head, socket, hn, h.mirror.mpr hc⟩⟩

theorem next_not_mem_branchSockets : SocketName.next ∉ branchSockets kind := by
  cases kind <;> decide

namespace Edited

/-- Steps and logic blocks stand in the chain of a root or in a branch of a logic block. -/
theorem exists_standing (h : g.Edited) (hkind : g.kind? id = some kind)
    (hchained : kind.step?.isSome ∨ kind.isLogic = true) :
    (∃ root ∈ g.roots, id ∈ g.chain root) ∨
      ∃ owner above socket, g.kind? owner = some above ∧ above.isLogic = true ∧
        socket ∈ branchSockets above ∧ id ∈ g.branch owner socket := by
  obtain ⟨head, hhead, hmem⟩ := h.forest.exists_head (live_of_kind? hkind)
  cases hplace : g.parent? head with
  | none => exact .inl ⟨head, h.forest.mem_roots.mpr ⟨hhead.live, hplace⟩, hmem⟩
  | some place =>
      obtain ⟨owner, socket⟩ := place
      have hc := h.forest.mirror.mp hplace
      have hne : socket ≠ .next := by
        rintro rfl
        exact hhead.first owner hplace
      obtain ⟨above, habove⟩ := live_iff_kind?.mp (live_of_child? hc)
      obtain ⟨below, hbelow, haccepts⟩ := h.accepts habove hc
      -- A head behind which nothing can stand is the block itself.
      have hbelowChained : below.step?.isSome ∨ below.isLogic = true := by
        by_contra hnot
        have hnone : Grammar.standard.accepted below .next = [] := by
          revert hnot
          cases below <;> decide
        rw [h.forest.chain_of_last hhead.live (h.child?_eq_none hbelow hnone),
          List.mem_singleton] at hmem
        obtain rfl := Option.some.inj ((hmem ▸ hkind).symm.trans hbelow)
        exact hnot hchained
      obtain ⟨hlogic, hsocket⟩ := mem_branchSockets_of_accepts hne haccepts hbelowChained
      exact .inr ⟨owner, above, socket, habove, hlogic, hsocket, branch_of_child? hc ▸ hmem⟩

/-- Behind a logic block there are logic blocks only. -/
theorem isLogic_of_mem_chain (h : g.Edited) {head : BlockId} (hkind : g.kind? head = some kind)
    (hlogic : kind.isLogic = true) : ∀ id ∈ g.chain head, g.isLogicBlock id = true := by
  have hlive := live_of_kind? hkind
  apply h.forest.forall_chain (P := fun id => g.isLogicBlock id = true) hlive
  · rw [isLogicBlock_eq_of_kind hkind, hlogic]
  · intro id hid hself next hnext
    obtain ⟨above, habove⟩ := live_iff_kind?.mp (h.forest.live_of_mem_chain hlive id hid)
    rw [isLogicBlock_eq_of_kind habove] at hself
    obtain ⟨below, hbelow, hlogicBelow⟩ := h.isLogic_next habove hself hnext
    rw [isLogicBlock_eq_of_kind hbelow, hlogicBelow]

/-- Among controls there are no steps. -/
theorem isLogic_of_mem_controls (h : g.Edited) (hroot : g.Live root)
    (hid : id ∈ (g.rootChain root).controls) : g.isLogicBlock id = true := by
  rcases h.forest.dropWhile_chain hroot (!g.isLogicBlock ·) with
    hnone | ⟨first, hfirst, hlogic, heq⟩
  · rw [rootChain, hnone] at hid
    cases hid
  · rw [rootChain, heq] at hid
    obtain ⟨kind, hkind⟩ := live_iff_kind?.mp (h.forest.live_of_mem_chain hroot first hfirst)
    refine h.isLogic_of_mem_chain hkind ?_ id hid
    simpa [isLogicBlock_eq_of_kind hkind] using hlogic

/-- The controls are what a chain of one root is from some logic block on. -/
theorem controlBlocks_eq_chain (h : g.Edited) : g.topLevel.controlBlocks = [] ∨
    ∃ first, g.Live first ∧ g.topLevel.controlBlocks = g.chain first := by
  rcases flatMap_controls_eq g false g.roots with
    hnone | ⟨chain, hchain, hne, heq⟩
  · exact .inl hnone
  · obtain ⟨root, hroot, rfl⟩ := exists_root_of_chain hchain
    have hlive := (h.forest.mem_roots.mp hroot).1
    have hdrop := h.forest.dropWhile_chain hlive (!g.isLogicBlock ·)
    refine hdrop.imp (fun hnone => absurd hnone hne) ?_
    rintro ⟨first, hfirst, -, hrest⟩
    exact ⟨first, h.forest.live_of_mem_chain hlive first hfirst, heq.trans hrest⟩

theorem controlBlocks_nodup (h : g.Edited) : g.topLevel.controlBlocks.Nodup := by
  rcases h.controlBlocks_eq_chain with hnone | ⟨first, hlive, heq⟩
  · simp [hnone]
  · exact heq ▸ h.forest.chain_nodup hlive

theorem isLogic_of_mem_controlBlocks (h : g.Edited) (hid : id ∈ g.topLevel.controlBlocks) :
    g.isLogicBlock id = true := by
  obtain ⟨chain, hchain, hmem⟩ := List.mem_flatMap.mp hid
  obtain ⟨root, hroot, rfl⟩ := exists_root_of_chain hchain
  exact h.isLogic_of_mem_controls (h.forest.mem_roots.mp hroot).1 hmem

/-! ## Controls -/

/-- Every logic block is read as a control. -/
theorem exists_readControl (hlogic : g.isLogicBlock id = true) :
    ∃ kind type, g.kind? id = some kind ∧ controlType? kind = some type ∧
      g.readControl id = some (g.controlAs id kind type) := by
  obtain ⟨kind, hkind⟩ : ∃ kind, g.kind? id = some kind := by
    cases hkind : g.kind? id with
    | none => simp [isLogicBlock, hkind] at hlogic
    | some kind => exact ⟨kind, rfl⟩
  rw [isLogicBlock_eq_of_kind hkind] at hlogic
  obtain ⟨type, htype⟩ := exists_controlType? hlogic
  exact ⟨kind, type, hkind, htype, readControl_eq_controlAs hkind htype⟩

/-- A control for each of its blocks, in their order. -/
theorem getElem?_controls (h : g.Edited) (index : Nat) :
    g.toProgram.controls[index]? = g.topLevel.controlBlocks[index]?.bind g.readControl := by
  apply getElem?_filterMap_of_isSome
  intro id hid
  obtain ⟨kind, type, -, -, hread⟩ := exists_readControl (h.isLogic_of_mem_controlBlocks hid)
  simp [hread]

/-- A logic block is saved as the control of its place among those that count. -/
theorem savedControl_iff (h : g.Edited) :
    g.SavedControl id index ↔ g.topLevel.controlBlocks[index]? = some id := by
  refine ⟨fun hsaved => hsaved.stands, fun hstands => ⟨hstands, ?_⟩⟩
  obtain ⟨kind, type, -, -, hread⟩ :=
    exists_readControl (h.isLogic_of_mem_controlBlocks (List.mem_of_getElem? hstands))
  exact ⟨_, hread, by rw [h.getElem?_controls, hstands]; exact hread⟩

theorem savedControl_unique (h : g.Edited) {other : Nat} (hsaved : g.SavedControl id index)
    (hother : g.SavedControl id other) : other = index := by
  have hlt := (List.getElem?_eq_some_iff.mp hother.stands).1
  have hsame := hother.stands.trans hsaved.stands.symm
  exact (List.getElem?_inj hlt h.controlBlocks_nodup).mp hsame

/-- Controls are saved in the order of their chain. -/
theorem savedControl_next (h : g.Edited) {next : BlockId} (hsaved : g.SavedControl id index)
    (hnext : g.child? id .next = some next) : g.SavedControl next (index + 1) := by
  rw [h.savedControl_iff] at hsaved ⊢
  rcases h.controlBlocks_eq_chain with hnone | ⟨first, hlive, heq⟩
  · simp [hnone] at hsaved
  · rw [heq] at hsaved ⊢
    exact h.forest.getElem?_chain_succ hlive hsaved hnext

/-- Every control is a logic block. -/
theorem exists_savedControl (h : g.Edited) {c : Control}
    (hc : g.toProgram.controls[index]? = some c) : ∃ id, g.SavedControl id index := by
  have hread := h.getElem?_controls index
  rw [hc] at hread
  obtain ⟨id, hstands, -⟩ := Option.bind_eq_some_iff.mp hread.symm
  exact ⟨id, h.savedControl_iff.mpr hstands⟩

/-- The chain of a root counts block by block, or is left out. -/
theorem counted_or_leftOut (h : g.Edited) (hroot : root ∈ g.roots) (hid : id ∈ g.chain root) :
    id ∈ g.topLevel.stepBlocks ∨ id ∈ g.topLevel.controlBlocks ∨ g.LeftOut id := by
  have hlive := (h.forest.mem_roots.mp hroot).1
  have hcounts : g.rootChain root ∈ g.topLevel.chains ∨ root ∈ g.topLevel.orphans :=
    mem_chains_or_orphans hroot hlive
  rcases hcounts with hchain | horphan
  · rw [← List.takeWhile_append_dropWhile (p := (!g.isLogicBlock ·)) (l := g.chain root)] at hid
    rcases List.mem_append.mp hid with hsteps | hcontrols
    · exact .inl (List.mem_flatMap.mpr ⟨_, hchain, hsteps⟩)
    · exact .inr (.inl (List.mem_flatMap.mpr ⟨_, hchain, hcontrols⟩))
  · obtain ⟨kind, hkind⟩ := live_iff_kind?.mp hlive
    obtain ⟨n, hn⟩ := h.forest.climb_of_mem_chain hlive id hid
    exact .inr (.inr (.stray n root kind hn hroot (orphanChain_mem_found hkind horphan)))

theorem not_logic_of_mem_stepBlocks (hid : id ∈ g.topLevel.stepBlocks) :
    g.isLogicBlock id = false := by
  obtain ⟨chain, hchain, hmem⟩ := List.mem_flatMap.mp hid
  obtain ⟨root, -, rfl⟩ := exists_root_of_chain hchain
  exact not_logic_of_mem_steps hmem

/-- A logic block becomes a control or is left out with a finding. -/
theorem savedControl_or_leftOut (h : g.Edited) (hkind : g.kind? id = some kind)
    (hlogic : kind.isLogic = true) : (∃ index, g.SavedControl id index) ∨ g.LeftOut id := by
  have hself : g.isLogicBlock id = true := (isLogicBlock_eq_of_kind hkind).trans hlogic
  rcases h.exists_standing hkind (.inr hlogic) with
    ⟨root, hroot, hmem⟩ | ⟨owner, above, socket, habove, -, hsocket, hmem⟩
  · rcases h.counted_or_leftOut hroot hmem with hstep | hcontrol | hout
    · rw [not_logic_of_mem_stepBlocks hstep] at hself
      cases hself
    · obtain ⟨index, hindex⟩ := List.mem_iff_getElem?.mp hcontrol
      exact .inl ⟨index, h.savedControl_iff.mpr hindex⟩
    · exact .inr hout
  · refine .inr (.nested 0 id rfl ?_)
    exact mem_found_of_branch habove hsocket (nested_mem_branchFindings hmem hself)

/-! ## Steps -/

/-- The steps at a place are read from its blocks. -/
theorem stepsAt?_eq (h : g.Edited) {s : Steps} (hs : g.toProgram.stepsAt? place = some s) :
    s = g.readSteps (g.blocksAt place) := by
  cases place with
  | top => exact (Option.some.inj hs).symm
  | branch index socket =>
      have hread := h.getElem?_controls index
      -- A branch is the body or the other branch of the control with that index.
      have hcontrol : ∃ c, g.toProgram.controls[index]? = some c ∧
          ((socket = .body ∧ c.steps = s) ∨ (socket = .otherwise ∧ c.otherwise = some s)) := by
        cases socket with
        | body =>
            obtain ⟨c, hc, heq⟩ := Option.map_eq_some_iff.mp hs
            exact ⟨c, hc, .inl ⟨rfl, heq⟩⟩
        | otherwise =>
            obtain ⟨c, hc, heq⟩ := Option.bind_eq_some_iff.mp hs
            exact ⟨c, hc, .inr ⟨rfl, heq⟩⟩
        | _ => cases hs
      obtain ⟨c, hc, hbranch⟩ := hcontrol
      rw [hc] at hread
      obtain ⟨owner, hstands, howner⟩ := Option.bind_eq_some_iff.mp hread.symm
      obtain ⟨kind, type, -, -, hcontrolAs⟩ :=
        exists_readControl (h.isLogic_of_mem_controlBlocks (List.mem_of_getElem? hstands))
      obtain rfl := Option.some.inj (howner.symm.trans hcontrolAs)
      rw [blocksAt, hstands]
      rcases hbranch with ⟨rfl, rfl⟩ | ⟨rfl, hotherwise⟩
      · rfl
      · simp only [controlAs] at hotherwise
        split at hotherwise
        · exact (Option.some.inj hotherwise).symm
        · cases hotherwise

/-- The branches of a saved logic block are there in the program. -/
theorem exists_stepsAt? (h : g.Edited) (hsaved : g.SavedControl owner index)
    (hkind : g.kind? owner = some kind) (hsocket : socket ∈ branchSockets kind) :
    ∃ s, g.toProgram.stepsAt? (.branch index socket) = some s := by
  obtain ⟨c, hread, hc⟩ := hsaved.held
  obtain ⟨other, type, hother, htype, hcontrolAs⟩ :=
    exists_readControl (h.isLogic_of_mem_controlBlocks (List.mem_of_getElem? hsaved.stands))
  obtain rfl := Option.some.inj (hkind.symm.trans hother)
  obtain rfl := Option.some.inj (hread.symm.trans hcontrolAs)
  have hcases : socket = .body ∨ (socket = .otherwise ∧ kind = .whenOtherwise) := by
    revert hsocket
    cases kind <;> cases socket <;> decide
  rcases hcases with rfl | ⟨rfl, rfl⟩ <;> simp [Program.stepsAt?, hc, controlAs]

/-- A step is saved where it is the first of its kind. -/
theorem savedStep_iff (h : g.Edited) {s : Steps} (hs : g.toProgram.stepsAt? place = some s) :
    g.SavedStep id step place ↔ g.firstStep? (g.blocksAt place) step = some id := by
  refine ⟨fun hsaved => hsaved.first, fun hfirst => ⟨hfirst, s, hs, ?_⟩⟩
  rw [h.stepsAt?_eq hs, get_readSteps, readStep_eq_firstStep?, hfirst]
  rfl

/-- Every step of the program is a block. -/
theorem exists_savedStep (h : g.Edited) {s : Steps} {r : Reference}
    (hs : g.toProgram.stepsAt? place = some s) (hr : s.get step = some r) :
    ∃ id, g.SavedStep id step place := by
  rw [h.stepsAt?_eq hs, get_readSteps, readStep_eq_firstStep?] at hr
  obtain ⟨id, hfirst, -⟩ := Option.map_eq_some_iff.mp hr
  exact ⟨id, (h.savedStep_iff hs).mpr hfirst⟩

/-- A step is saved, stands where it does a second time, or is left out with a finding. -/
theorem savedStep_or_reported (h : g.Edited) (hkind : g.kind? id = some (.ofStep step)) :
    (∃ place, g.SavedStep id step place) ∨ g.Flagged id (.duplicateStep step) ∨
      g.LeftOut id := by
  have hself : g.isLogicBlock id = false := by
    rw [isLogicBlock_eq_of_kind hkind]
    cases step <;> rfl
  have hstep : (BlockKind.ofStep step).step?.isSome := by simp [step?_ofStep]
  -- A step stands in the chain of a root or in a branch.
  rcases h.exists_standing hkind (.inl hstep) with
    ⟨root, hroot, hmem⟩ | ⟨owner, above, socket, habove, hlogic, hsocket, hmem⟩
  · rcases h.counted_or_leftOut hroot hmem with hcounted | hcontrol | hout
    · rcases firstStep?_or_duplicate false h.forest.stepBlocks_nodup hcounted hkind with
        hfirst | htwice
      · exact .inl ⟨.top, (h.savedStep_iff rfl).mpr hfirst⟩
      · exact .inr (.inl (mem_found_of_top htwice))
    · rw [h.isLogic_of_mem_controlBlocks hcontrol] at hself
      cases hself
    · exact .inr (.inr hout)
  · have hne : socket ≠ .next := fun heq => next_not_mem_branchSockets (heq ▸ hsocket)
    rcases h.savedControl_or_leftOut habove hlogic with ⟨index, hsaved⟩ | hout
    · obtain ⟨head, hc, hhead, -⟩ := h.forest.head_of_branch hne hmem
      have hnodup : (g.branch owner socket).Nodup :=
        branch_of_child? hc ▸ h.forest.chain_nodup hhead.live
      rcases firstStep?_or_duplicate true hnodup hmem hkind with hfirst | htwice
      · obtain ⟨s, hs⟩ := h.exists_stepsAt? hsaved habove hsocket
        refine .inl ⟨.branch index socket, (h.savedStep_iff hs).mpr ?_⟩
        simpa [blocksAt, hsaved.stands] using hfirst
      · exact .inr (.inl (mem_found_of_branch habove hsocket htwice))
    · obtain ⟨n, hn⟩ := h.forest.climb_of_mem_branch hne hmem
      exact .inr (.inr (hout.below hn))

/-! ## No block is saved twice -/

/-- The blocks of the chains that hang on a socket, or that count at the top level. -/
def blocksUnder (g : Graph) : (anchor : Option (BlockId × SocketName)) → List BlockId
  | none => g.topLevel.stepBlocks
  | some (owner, socket) => g.branch owner socket

/-- The blocks under two anchors are distinct. -/
theorem anchor_unique (h : g.Edited) {anchor anchor' : Option (BlockId × SocketName)}
    (hne : ∀ owner, anchor ≠ some (owner, .next)) (hne' : ∀ owner, anchor' ≠ some (owner, .next))
    (hid : id ∈ blocksUnder g anchor) (hid' : id ∈ blocksUnder g anchor') : anchor' = anchor := by
  have hhead : ∀ anchor, (∀ owner, anchor ≠ some (owner, .next)) → id ∈ blocksUnder g anchor →
      ∃ head, g.IsHead head ∧ id ∈ g.chain head ∧ g.parent? head = anchor := by
    intro anchor hne hid
    cases anchor with
    | none =>
        obtain ⟨chain, hchain, hmem⟩ := List.mem_flatMap.mp hid
        obtain ⟨root, hroot, rfl⟩ := exists_root_of_chain hchain
        exact ⟨root, h.forest.isHead_of_root hroot, mem_chain_of_mem_steps hmem,
          (h.forest.mem_roots.mp hroot).2⟩
    | some anchor =>
        obtain ⟨owner, socket⟩ := anchor
        obtain ⟨head, hc, hhead, hmem⟩ := h.forest.head_of_branch (by simpa using hne owner) hid
        exact ⟨head, hhead, hmem, h.forest.mirror.mpr hc⟩
  obtain ⟨head, hfirst, hmem, hparent⟩ := hhead anchor hne hid
  obtain ⟨head', hfirst', hmem', hparent'⟩ := hhead anchor' hne' hid'
  obtain rfl := h.forest.head_unique hfirst hfirst' hmem hmem'
  exact hparent'.symm.trans hparent

theorem blocksUnder_nodup (h : g.Edited) {anchor : Option (BlockId × SocketName)}
    (hne : ∀ owner, anchor ≠ some (owner, .next)) : (blocksUnder g anchor).Nodup := by
  cases anchor with
  | none => exact h.forest.stepBlocks_nodup
  | some anchor =>
      obtain ⟨owner, socket⟩ := anchor
      cases hc : g.child? owner socket with
      | none => simp [blocksUnder, branch_of_empty hc]
      | some head =>
          rw [blocksUnder, branch_of_child? hc]
          exact h.forest.chain_nodup (h.forest.live_child hc)

/-- A place as it is found in the diagram. -/
inductive AnchorOf (g : Graph) : StepPlace → Option (BlockId × SocketName) → Prop
  | top : AnchorOf g .top none
  | branch (owner : BlockId) (index : Nat) (socket : SocketName)
      (howner : g.SavedControl owner index) (hne : socket ≠ .next) :
      AnchorOf g (.branch index socket) (some (owner, socket))

/-- A saved step is the first of its kind under some anchor. -/
theorem exists_anchor (h : g.Edited) (hsaved : g.SavedStep id step place) :
    ∃ anchor, AnchorOf g place anchor ∧ (∀ owner, anchor ≠ some (owner, .next)) ∧
      g.firstStep? (blocksUnder g anchor) step = some id := by
  obtain ⟨hfirst, s, hs, -⟩ := hsaved
  cases place with
  | top => exact ⟨none, .top, nofun, hfirst⟩
  | branch index socket =>
      have hne : socket ≠ .next := by
        rintro rfl
        cases hs
      cases hstands : g.topLevel.controlBlocks[index]? with
      | none => simp [blocksAt, hstands, firstStep?] at hfirst
      | some owner =>
          rw [blocksAt, hstands] at hfirst
          refine ⟨some (owner, socket), .branch owner index socket
            (h.savedControl_iff.mpr hstands) hne, by simp [hne], hfirst⟩

/-- A step is saved in one place only. -/
theorem savedStep_unique (h : g.Edited) {place' : StepPlace} (hsaved : g.SavedStep id step place)
    (hsaved' : g.SavedStep id step place') : place' = place := by
  obtain ⟨anchor, hanchor, hne, hfirst⟩ := h.exists_anchor hsaved
  obtain ⟨anchor', hanchor', hne', hfirst'⟩ := h.exists_anchor hsaved'
  obtain rfl := h.anchor_unique hne hne' (mem_of_firstStep? hfirst) (mem_of_firstStep? hfirst')
  cases hanchor with
  | top =>
      cases hanchor'
      rfl
  | branch owner index socket howner hnext =>
      cases hanchor' with
      | branch _ index' _ howner' => rw [h.savedControl_unique howner howner']

/-- A step that is reported as standing there a second time stands under some anchor and is not
the one that is kept there. -/
theorem exists_anchor_of_duplicate (h : g.Edited) (hflagged : g.Flagged id (.duplicateStep step)) :
    ∃ anchor : Option (BlockId × SocketName), (∀ owner, anchor ≠ some (owner, .next)) ∧
      id ∈ blocksUnder g anchor ∧ g.kind? id = some (.ofStep step) ∧
        g.firstStep? (blocksUnder g anchor) step ≠ some id := by
  obtain ⟨anchor, nested, hne, hmem⟩ : ∃ anchor : Option (BlockId × SocketName), ∃ nested,
      (∀ owner, anchor ≠ some (owner, .next)) ∧
        .about id (.duplicateStep step) ∈ g.branchFindings nested [] (blocksUnder g anchor) := by
    rcases branch_of_duplicate_mem_found hflagged with
      htop | ⟨owner, kind, socket, -, hsocket, hbranch⟩
    · exact ⟨none, false, nofun, htop⟩
    · refine ⟨some (owner, socket), true, ?_, hbranch⟩
      rintro _ ⟨⟩
      exact next_not_mem_branchSockets hsocket
  rw [duplicate_mem_branchFindings (h.blocksUnder_nodup hne)] at hmem
  obtain ⟨hid, hkind, hkept⟩ := hmem
  exact ⟨anchor, hne, hid, hkind, hkept.resolve_left nofun⟩

/-- No step that is reported as standing there a second time is saved. -/
theorem not_saved_of_duplicate (h : g.Edited) {twice : StepKind}
    (hflagged : g.Flagged id (.duplicateStep twice)) : ¬ g.SavedStep id step place := by
  intro hsaved
  obtain ⟨anchor, hne, hmem, hkind, hnot⟩ := h.exists_anchor_of_duplicate hflagged
  obtain ⟨anchor', -, hne', hfirst⟩ := h.exists_anchor hsaved
  obtain rfl := h.anchor_unique hne hne' hmem (mem_of_firstStep? hfirst)
  obtain rfl := ofStep_inj.mp (Option.some.inj (hkind.symm.trans hsaved.kind_eq))
  exact hnot hfirst

end Edited

/-- Every step and every logic block of a diagram that edits under the standard grammar lead to is
saved, each in exactly one place and the controls in the order of their chain, or accounted for by
a finding: it stands in its branch a second time, it is at or below a logic block reported in a
branch, or the chain of its root is reported. Steps that are reported to stand there a second time
are not saved, and nothing else is in the program. -/
theorem saving_accounts_for_every_block (edits : List GraphEdit) :
    let g := (empty .standard).run edits
    g.validate none = g.pinned ++ g.found none ∧
    (∀ id step, g.kind? id = some (.ofStep step) →
      (∃! place, g.SavedStep id step place) ∨ g.Flagged id (.duplicateStep step) ∨
        g.LeftOut id) ∧
    (∀ id kind, g.kind? id = some kind → kind.isLogic = true →
      (∃! index, g.SavedControl id index) ∨ g.LeftOut id) ∧
    (∀ id next index, g.SavedControl id index → g.child? id .next = some next →
      g.SavedControl next (index + 1)) ∧
    (∀ id twice, g.Flagged id (.duplicateStep twice) →
      (∀ step place, ¬ g.SavedStep id step place) ∧ ∀ index, ¬ g.SavedControl id index) ∧
    (∀ place s step r, g.toProgram.stepsAt? place = some s → s.get step = some r →
      ∃! id, g.SavedStep id step place) ∧
    (∀ index c, g.toProgram.controls[index]? = some c → ∃! id, g.SavedControl id index) := by
  intro g
  have h : g.Edited := edited_run edits
  refine ⟨validate_eq g none, ?_, ?_, ?_, ?_, ?_, ?_⟩
  · intro id step hkind
    refine (h.savedStep_or_reported hkind).imp_left ?_
    rintro ⟨place, hsaved⟩
    exact ⟨place, hsaved, fun _ hother => h.savedStep_unique hsaved hother⟩
  · intro id kind hkind hlogic
    refine (h.savedControl_or_leftOut hkind hlogic).imp_left ?_
    rintro ⟨index, hsaved⟩
    exact ⟨index, hsaved, fun _ hother => h.savedControl_unique hsaved hother⟩
  · intro id next index hsaved hnext
    exact h.savedControl_next hsaved hnext
  · intro id twice hflagged
    refine ⟨fun step place => h.not_saved_of_duplicate hflagged, fun index hsaved => ?_⟩
    obtain ⟨-, -, -, hkind, -⟩ := h.exists_anchor_of_duplicate hflagged
    have hlogic := h.isLogic_of_mem_controlBlocks (List.mem_of_getElem? hsaved.stands)
    rw [isLogicBlock_eq_of_kind hkind] at hlogic
    cases twice <;> cases hlogic
  · intro place s step r hs hr
    obtain ⟨id, hsaved⟩ := h.exists_savedStep hs hr
    exact ⟨id, hsaved, fun _ hother => hsaved.inj hother⟩
  · intro index c hc
    obtain ⟨id, hsaved⟩ := h.exists_savedControl hc
    exact ⟨id, hsaved, fun _ hother => hsaved.inj hother⟩

/-- That findings recorded before do not count cannot be dropped: whoever records of the only pick
of a diagram that it stands there a second time is told so by validation, and the pick is saved. -/
theorem recorded_duplicate_is_saved :
    let g := (empty .standard).run [.insert .pick, .pin (.about 0 (.duplicateStep .pick))]
    .about 0 (.duplicateStep .pick) ∈ g.validate none ∧ g.SavedStep 0 .pick .top ∧
      ¬ g.Flagged 0 (.duplicateStep .pick) := by
  intro g
  have hsaved : g.SavedStep 0 .pick .top := ⟨by decide, _, rfl, rfl⟩
  refine ⟨?_, hsaved, fun hflagged => ?_⟩
  · rw [validate_eq]
    exact List.mem_append_left _ (List.mem_singleton_self _)
  · exact (edited_run _ : g.Edited).not_saved_of_duplicate hflagged hsaved

end Graph

end TaskDiagram
