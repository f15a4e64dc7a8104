import Mathlib.Data.List.Find
import Mathlib.Data.List.Perm.Basic
import Mathlib.Tactic.IntervalCases
import TaskDiagram.Grammar.Standard
import TaskDiagram.Proofs.Graph.Branches
import TaskDiagram.Proofs.Graph.Edits
import TaskDiagram.Proofs.Graph.Resemblance
import TaskDiagram.Proofs.Graph.TopLevel

/-! # Renumbering

What a diagram is saved as and what is found about it is decided by its structure and by the order
of its roots. Saving and validation go from the roots along links and look at kinds, fields and
sockets only, so a bijection that keeps these carries each of their walks from one diagram to the
other. Validation also goes through all blocks by increasing id; that puts findings in another
order, and makes no other difference.
-/

namespace TaskDiagram

/-- A finding, told about the block that stands for the one it was about. -/
def Warning.renamed (f : BlockId → BlockId) (w : Warning) : Warning := ⟨w.block.map f, w.kind⟩

def RootChain.renamed (f : BlockId → BlockId) (c : RootChain) : RootChain :=
  ⟨c.steps.map f, c.controls.map f⟩

namespace TopLevel

def renamed (f : BlockId → BlockId) (top : TopLevel) : TopLevel :=
  ⟨top.chains.map (.renamed f), top.orphans.map f⟩

@[simp]
theorem stepBlocks_renamed (f : BlockId → BlockId) (top : TopLevel) :
    (top.renamed f).stepBlocks = top.stepBlocks.map f := by
  simp only [stepBlocks, renamed, List.flatMap_map, List.map_flatMap]
  rfl

@[simp]
theorem controlBlocks_renamed (f : BlockId → BlockId) (top : TopLevel) :
    (top.renamed f).controlBlocks = top.controlBlocks.map f := by
  simp only [controlBlocks, renamed, List.flatMap_map, List.map_flatMap]
  rfl

end TopLevel

/-- A block that stands for another: their kinds are the same, their fields are read alike, and what
is plugged in stands for what is plugged into the other. -/
structure Block.StandsFor (f : BlockId → BlockId) (b' b : Block) : Prop where
  kind : b'.kind = b.kind
  fields : b.fields.Alike b'.fields
  inputs : ∀ socket, b'.inputs.get? socket = (b.inputs.get? socket).map f

namespace Block.StandsFor

variable {f : BlockId → BlockId} {b b' : Block}

theorem isSome_field? (h : b'.StandsFor f b) (name : String) :
    (b'.field? name).isSome = (b.field? name).isSome :=
  (h.fields name).1.symm

theorem textField? (h : b'.StandsFor f b) (name : String) :
    b'.textField? name = b.textField? name :=
  (h.fields name).2.1.symm

theorem intField? (h : b'.StandsFor f b) (name : String) :
    b'.intField? name = b.intField? name :=
  (h.fields name).2.2.symm

/-- What is found about a reference is found about the block that stands for it. -/
theorem referenceFindings (h : b'.StandsFor f b) (catalog : Option Catalog) (id : BlockId) :
    Graph.referenceFindings catalog (f id) b' =
      (Graph.referenceFindings catalog id b).map (.renamed f) := by
  rw [Graph.referenceFindings, Graph.referenceFindings, h.kind]
  cases b.kind.entity? with
  | none => rfl
  | some entity =>
      simp only [h.intField?, h.textField?, apply_ite (List.map (Warning.renamed f))]
      rfl

/-- What is found about sockets is found about the block that stands for it. -/
theorem inputFindings {g g' : Graph} (h : b'.StandsFor f b) (hgrammar : g'.grammar = g.grammar)
    (id : BlockId) :
    g'.inputFindings (f id) b' = (g.inputFindings id b).map (.renamed f) := by
  rw [Graph.inputFindings, Graph.inputFindings, h.kind, hgrammar]
  cases g.grammar.spec? b.kind with
  | none => rfl
  | some spec =>
      simp only [h.inputs, Option.isNone_map, List.map_map]
      rfl

theorem countFindings (h : b'.StandsFor f b) (id : BlockId) :
    Graph.countFindings (f id) b' = (Graph.countFindings id b).map (.renamed f) := by
  have hcount : (b'.field? fieldTimes).isNone = (b.field? fieldTimes).isNone := by
    rw [← Option.not_isSome, ← Option.not_isSome, h.isSome_field?]
  rw [Graph.countFindings, Graph.countFindings, h.kind, hcount]
  split <;> rfl

end Block.StandsFor

namespace Graph

variable {g g' : Graph} {f : BlockId → BlockId} {id head : BlockId} {ids : List BlockId}

namespace SameStructure

variable (h : g.SameStructure g' f)

include h

/-! ## Blocks and walks -/

theorem live (hid : g.Live id) : g'.Live (f id) := h.bijOn.mapsTo hid

/-- There is a block for every block, and it stands for that one. -/
theorem exists_block {b : Block} (hb : g.block? id = some b) :
    ∃ b', g'.block? (f id) = some b' ∧ b'.StandsFor f b := by
  have hid : g.Live id := by simp [Live, hb]
  obtain ⟨b', hb'⟩ := Option.isSome_iff_exists.mp (h.live hid)
  refine ⟨b', hb', ?_, h.fields id b b' hb hb', fun socket => ?_⟩
  · have hkind := h.kind id hid
    rw [kind?, kind?, hb, hb'] at hkind
    exact Option.some.inj hkind
  · have hlink := h.links id hid socket
    rwa [child?, child?, hb, hb'] at hlink

theorem isLogicBlock (hid : g.Live id) : g'.isLogicBlock (f id) = g.isLogicBlock id := by
  rw [Graph.isLogicBlock, h.kind id hid, Graph.isLogicBlock]

section Walks

variable (hg : g.IsForest) (hg' : g'.IsForest)

include hg hg'

/-- A chain is walked along in the same order under the other ids. -/
theorem chain (hhead : g.Live head) : g'.chain (f head) = (g.chain head).map f := by
  induction head, hhead using hg.chain_induction with
  | step head hlive ih =>
      have hlink := h.links head hlive .next
      cases hnext : g.child? head .next with
      | none =>
          rw [hnext] at hlink
          rw [hg.chain_of_last hlive hnext, hg'.chain_of_last (h.live hlive) hlink]
          rfl
      | some next =>
          rw [hnext] at hlink
          rw [hg.chain_of_next hnext, hg'.chain_of_next hlink, ih next hnext]
          rfl

/-- A branch has the same blocks in the same order under the other ids. -/
theorem branch (hid : g.Live id) (socket : SocketName) :
    g'.branch (f id) socket = (g.branch id socket).map f := by
  have hlink := h.links id hid socket
  cases hc : g.child? id socket with
  | none =>
      rw [hc] at hlink
      rw [branch_of_empty hc, branch_of_empty hlink]
      rfl
  | some child =>
      rw [hc] at hlink
      rw [branch_of_child? hc, branch_of_child? hlink, h.chain hg hg' (hg.live_child hc)]

theorem rootChain (hhead : g.Live head) : g'.rootChain (f head) = (g.rootChain head).renamed f := by
  have hlogic : ∀ id ∈ g.chain head, g'.isLogicBlock (f id) = g.isLogicBlock id := fun id hid =>
    h.isLogicBlock (hg.live_of_mem_chain hhead id hid)
  rw [Graph.rootChain, Graph.rootChain, h.chain hg hg' hhead, RootChain.renamed]
  -- Where a chain is split depends on its blocks alone, so any list of such blocks will do.
  generalize g.chain head = ids at hlogic
  induction ids with
  | nil => rfl
  | cons id rest ih =>
      have hrest := ih fun id hid => hlogic id (List.mem_cons_of_mem _ hid)
      obtain ⟨hsteps, hcontrols⟩ := RootChain.mk.inj hrest
      cases hid : g.isLogicBlock id <;>
        simp [hlogic id List.mem_cons_self, hid, hsteps, hcontrols]

/-- The same chains count. -/
theorem topLevelOf (hgrammar : g'.grammar = g.grammar) (hids : ∀ id ∈ ids, g.Live id)
    (taken : Bool) :
    g'.topLevelOf taken (ids.map f) = (g.topLevelOf taken ids).renamed f := by
  induction ids generalizing taken with
  | nil => rfl
  | cons head rest ih =>
      have hhead := hids head List.mem_cons_self
      have hrest := ih fun id hid => hids id (List.mem_cons_of_mem _ hid)
      obtain ⟨kind, hkind⟩ := live_iff_kind?.mp hhead
      have hkind' := (h.kind head hhead).trans hkind
      have hempty : ((g.rootChain head).renamed f).controls.isEmpty =
          (g.rootChain head).controls.isEmpty := List.isEmpty_map
      rw [List.map_cons, Graph.topLevelOf, Graph.topLevelOf, hkind, hkind']
      simp only [h.rootChain hg hg' hhead, hempty, hgrammar, hrest]
      split <;> rfl

end Walks

/-! ## Saving -/

section Saving

variable (hg : g.IsForest)

include hg

/-- References are read alike. -/
theorem readReference (hid : g.Live id) (socket : SocketName) :
    g'.readReference (f id) socket = g.readReference id socket := by
  rw [Graph.readReference, Graph.readReference, h.links id hid]
  cases hc : g.child? id socket with
  | none => rfl
  | some child =>
      obtain ⟨b, hb⟩ := Option.isSome_iff_exists.mp (hg.live_child hc)
      obtain ⟨b', hb', hsame⟩ := h.exists_block hb
      simp [hb, hb', hsame.textField?, hsame.intField?]

/-- Steps are read alike, since the first of each kind stand for each other. -/
theorem readSteps (hids : ∀ id ∈ ids, g.Live id) :
    g'.readSteps (ids.map f) = g.readSteps ids := by
  have hstep : ∀ step, g'.readStep (ids.map f) step = g.readStep ids step := by
    intro step
    have hfound : ids.find? ((fun id => g'.kind? id == some (.ofStep step)) ∘ f) =
        ids.find? fun id => g.kind? id == some (.ofStep step) :=
      List.find?_congr fun id hid => by simp [h.kind id (hids id hid)]
    rw [readStep, readStep, List.find?_map, hfound, Option.map_map]
    refine Option.map_congr fun id hid => ?_
    exact h.readReference hg (hids id (List.mem_of_find?_eq_some hid)) _
  simp only [Graph.readSteps, hstep]

theorem readEvent (hid : g.Live id) : g'.readEvent (f id) = g.readEvent id := by
  rw [Graph.readEvent, Graph.readEvent, h.links id hid]
  cases hc : g.child? id .when with
  | none => rfl
  | some child =>
      have hchild := hg.live_child hc
      simp only [Option.map_some, h.kind child hchild, h.links child hchild,
        h.readReference hg hchild, Option.map_map, Function.comp_def]

/-- Controls are read alike. -/
theorem readControl (hg' : g'.IsForest) (hid : g.Live id) :
    g'.readControl (f id) = g.readControl id := by
  obtain ⟨b, hb⟩ := Option.isSome_iff_exists.mp hid
  obtain ⟨b', hb', hsame⟩ := h.exists_block hb
  have hbranch : ∀ socket, g'.readSteps (g'.branch (f id) socket) =
      g.readSteps (g.branch id socket) := by
    intro socket
    rw [h.branch hg hg' hid, h.readSteps hg (hg.live_of_mem_branch socket)]
  simp only [Graph.readControl, hb, hb', hsame.kind, hsame.intField?, h.readEvent hg hid, hbranch,
    Option.bind_eq_bind, Option.bind_some]

end Saving

/-! ## Findings -/

/-- A branch is judged alike, by induction along it. -/
theorem branchFindings (hids : ∀ id ∈ ids, g.Live id) (nested : Bool) (seen : List StepKind) :
    g'.branchFindings nested seen (ids.map f) =
      (g.branchFindings nested seen ids).map (.renamed f) := by
  induction ids generalizing seen with
  | nil => rfl
  | cons id rest ih =>
      have hid := hids id List.mem_cons_self
      have hfindings : g'.linkFindings nested seen (f id) =
          (g.linkFindings nested seen id).map (.renamed f) := by
        rw [linkFindings, linkFindings, h.kind id hid, h.isLogicBlock hid]
        cases (g.kind? id).bind BlockKind.step? <;> dsimp only <;> split <;> rfl
      have hmet : g'.met seen (f id) = g.met seen id := by
        rw [met, met, h.kind id hid]
      rw [List.map_cons, branchFindings_cons, branchFindings_cons, List.map_append, hfindings, hmet,
        ih fun id hid => hids id (List.mem_cons_of_mem _ hid)]

theorem missingSteps (hids : ∀ id ∈ ids, g.Live id) (owner : Option BlockId) :
    g'.missingSteps (owner.map f) (ids.map f) =
      (g.missingSteps owner ids).map (.renamed f) := by
  have hkinds : g'.stepKinds (ids.map f) = g.stepKinds ids := by
    rw [stepKinds, stepKinds, List.filterMap_map]
    refine List.filterMap_congr fun id hid => ?_
    rw [Function.comp_apply, h.kind id (hids id hid)]
  simp only [Graph.missingSteps, hkinds, Option.isNone_map]
  split
  · rfl
  · rw [List.map_map]
    rfl

/-- The same is found about a branch, and the same is missing in it. -/
theorem checkBranch (hids : ∀ id ∈ ids, g.Live id) (owner : Option BlockId) :
    g'.checkBranch (owner.map f) (ids.map f) =
      (g.checkBranch owner ids).map (.renamed f) := by
  simp only [Graph.checkBranch, Option.isSome_map, h.branchFindings hids, h.missingSteps hids,
    List.map_append]

/-- The same is found about a block and about the one that stands for it. -/
theorem blockFindings (hg : g.IsForest) (hg' : g'.IsForest) (hgrammar : g'.grammar = g.grammar)
    {b b' : Block} (hb : g.block? id = some b) (hsame : b'.StandsFor f b)
    (catalog : Option Catalog) :
    g'.blockFindings catalog (f id) b' =
      (g.blockFindings catalog id b).map (.renamed f) := by
  have hid : g.Live id := by simp [Live, hb]
  have hbranch : ∀ socket, g'.checkBranch (some (f id)) (g'.branch (f id) socket) =
      (g.checkBranch (some id) (g.branch id socket)).map (.renamed f) := by
    intro socket
    rw [h.branch hg hg' hid]
    exact h.checkBranch (hg.live_of_mem_branch socket) (some id)
  simp only [Graph.blockFindings, hsame.referenceFindings, hsame.inputFindings hgrammar,
    hsame.countFindings, hsame.kind, hbranch, List.map_append, List.map_flatMap]

end SameStructure

/-! ## Diagrams up to ids -/

/-- For each block of one diagram the one of the other that stands for it. -/
def counterparts (g g' : Graph) (f : BlockId → BlockId) : List (BlockId × Block) :=
  g.blocks.map fun entry => (f entry.1, (g'.block? (f entry.1)).getD entry.2)

/-- Each block of the other diagram stands for exactly one; only the order of ids is lost. -/
theorem SameStructure.counterparts_perm (h : g.SameStructure g' f) :
    (g.counterparts g' f).Perm g'.blocks := by
  have hlive : ∀ {entry : BlockId × Block}, entry ∈ g.blocks → g.Live entry.1 := by
    intro entry hentry
    simp [Live, mem_blocks.mp hentry]
  rw [counterparts, List.perm_ext_iff_of_nodup _ g'.blocks_nodup]
  · rintro ⟨id', b'⟩
    rw [List.mem_map, mem_blocks]
    constructor
    · rintro ⟨entry, hentry, heq⟩
      obtain ⟨rfl, rfl⟩ := Prod.mk.inj heq
      obtain ⟨b', hb', -⟩ := h.exists_block (mem_blocks.mp hentry)
      rw [hb', Option.getD_some]
    · intro hb'
      obtain ⟨id, hid, rfl⟩ := h.bijOn.surjOn (show g'.Live id' by simp [Live, hb'])
      obtain ⟨b, hb⟩ := Option.isSome_iff_exists.mp hid
      exact ⟨(id, b), mem_blocks.mpr hb, by rw [hb', Option.getD_some]⟩
  · refine g.blocks_nodup.map_on fun a ha b hb heq => ?_
    have hid := h.bijOn.injOn (hlive ha) (hlive hb) (Prod.mk.inj heq).1
    have hblock := (mem_blocks.mp ha).symm.trans (hid ▸ mem_blocks.mp hb)
    exact Prod.ext hid (Option.some.inj hblock)

/-- The same structure, with the roots in the same order and the same findings recorded. -/
structure SameUpToIds (g g' : Graph) (f : BlockId → BlockId) : Prop
    extends SameStructure g g' f where
  roots : g'.roots = g.roots.map f
  pinned : (g.pinned.map (.renamed f)).Perm g'.pinned

namespace SameUpToIds

variable (h : g.SameUpToIds g' f) (hg : g.IsForest) (hg' : g'.IsForest)
  (hgrammar : g'.grammar = g.grammar)

include h hg hg' hgrammar

/-- The same chains count at the top level, and the same are stray. -/
theorem topLevel : g'.topLevel = g.topLevel.renamed f := by
  rw [Graph.topLevel, Graph.topLevel, h.roots]
  exact h.topLevelOf hg hg' hgrammar (fun id hid => (hg.mem_roots.mp hid).1) false

/-- The same program is saved. -/
theorem toProgram : g'.toProgram = g.toProgram := by
  have hcontrols : g'.topLevel.controlBlocks.filterMap g'.readControl =
      g.topLevel.controlBlocks.filterMap g.readControl := by
    rw [h.topLevel hg hg' hgrammar, TopLevel.controlBlocks_renamed, List.filterMap_map]
    exact List.filterMap_congr fun id hid =>
      h.readControl hg hg' (hg.live_of_mem_controlBlocks id hid)
  have hsteps : g'.readSteps g'.topLevel.stepBlocks = g.readSteps g.topLevel.stepBlocks := by
    rw [h.topLevel hg hg' hgrammar, TopLevel.stepBlocks_renamed]
    exact h.readSteps hg hg.live_of_mem_stepBlocks
  simp only [Graph.toProgram, hcontrols, hsteps]

/-- The same is found, in the order of the other ids. -/
theorem found (catalog : Option Catalog) :
    ((g.found catalog).map (.renamed f)).Perm (g'.found catalog) := by
  have hblock : ∀ entry ∈ g.blocks,
      (g.blockFindings catalog entry.1 entry.2).map (.renamed f) =
        g'.blockFindings catalog (f entry.1) ((g'.block? (f entry.1)).getD entry.2) := by
    intro entry hentry
    have hb := mem_blocks.mp hentry
    obtain ⟨b', hb', hsame⟩ := h.exists_block hb
    rw [hb', Option.getD_some]
    exact (h.blockFindings hg hg' hgrammar hb hsame catalog).symm
  have hblocks : ((g.blocks.flatMap fun entry =>
        g.blockFindings catalog entry.1 entry.2).map (.renamed f)).Perm
      (g'.blocks.flatMap fun entry => g'.blockFindings catalog entry.1 entry.2) := by
    have hperm := h.counterparts_perm.flatMap_right fun entry =>
      g'.blockFindings catalog entry.1 entry.2
    rw [counterparts, List.flatMap_map] at hperm
    rw [List.map_flatMap, List.flatMap_congr hblock]
    exact hperm
  have hsteps : g'.checkBranch none g'.topLevel.stepBlocks =
      (g.checkBranch none g.topLevel.stepBlocks).map (.renamed f) := by
    rw [h.topLevel hg hg' hgrammar, TopLevel.stepBlocks_renamed]
    exact h.checkBranch hg.live_of_mem_stepBlocks none
  have horphans : (g'.topLevel.orphans.filterMap fun head =>
        (g'.kind? head).map fun kind => Warning.about head (.orphanChain kind)) =
      (g.topLevel.orphans.filterMap fun head =>
        (g.kind? head).map fun kind => Warning.about head (.orphanChain kind)).map
          (.renamed f) := by
    rw [h.topLevel hg hg' hgrammar, TopLevel.renamed, List.filterMap_map, List.map_filterMap]
    refine List.filterMap_congr fun head hhead => ?_
    rw [Function.comp_apply, h.kind head (hg.live_of_mem_orphans head hhead), Option.map_map]
    rfl
  rw [Graph.found, Graph.found, List.map_append, List.map_append, hsteps, horphans]
  exact (hblocks.append_right _).append_right _

/-- The same is reported: what was recorded before, and what is found. -/
theorem validate (catalog : Option Catalog) :
    ((g.validate catalog).map (.renamed f)).Perm (g'.validate catalog) := by
  rw [validate_eq, validate_eq, List.map_append]
  exact h.pinned.append (h.found hg hg' hgrammar catalog)

end SameUpToIds

/-- Diagrams that edits lead to, under one grammar, with a block in each for every block of the
other: when kinds, fields, links, the order of roots and recorded findings are the same, they are
saved as the same program, and the same is found about them. Fields need only be read alike, and
findings need only be recorded in some order. -/
theorem saved_and_found_up_to_ids (grammar : Grammar) (edits edits' : List GraphEdit)
    {f : BlockId → BlockId}
    (h : ((empty grammar).run edits).SameUpToIds ((empty grammar).run edits') f) :
    let g := (empty grammar).run edits
    let g' := (empty grammar).run edits'
    g'.toProgram = g.toProgram ∧
      ∀ catalog, ((g.validate catalog).map (.renamed f)).Perm (g'.validate catalog) := by
  intro g g'
  have hg : g.IsForest := (isForest_empty grammar).run edits
  have hg' : g'.IsForest := (isForest_empty grammar).run edits'
  have hgrammar : g'.grammar = g.grammar := by rw [grammar_run, grammar_run]
  exact ⟨h.toProgram hg hg' hgrammar, h.validate hg hg' hgrammar⟩

/-- A movement with its object, built from the front and, behind a block that is removed again, from
the back. -/
theorem movement_built_from_both_ends :
    let g := (empty .standard).run [.insert .pick, .insert .objectRef, .insert .place,
      .connect 0 .object 1, .connect 0 .next 2, .pin (.about 2 .nestedControl)]
    let g' := (empty .standard).run [.insert .loop, .insert .place, .insert .objectRef,
      .insert .pick, .remove 0, .connect 3 .next 1, .connect 3 .object 2,
      .pin (.about 1 .nestedControl)]
    g.SameUpToIds g' (3 - ·) ∧ g'.toProgram = g.toProgram ∧
      ∀ catalog, ((g.validate catalog).map (.renamed (3 - ·))).Perm (g'.validate catalog) := by
  intro g g'
  have hlt : ∀ id : Nat, g.Live id → id < 3 := fun id hid => hid.lt_nextId
  have hlt' : ∀ id : Nat, g'.Live id → id < 4 := fun id hid => hid.lt_nextId
  have hlive : ∀ id < 3, g'.Live (3 - id) := by
    intro id hid
    interval_cases id <;> rfl
  -- The ids of the one diagram count up where those of the other count down.
  have hbij : Set.BijOn (3 - ·) {id | g.Live id} {id | g'.Live id} := by
    refine ⟨fun id hid => hlive id (hlt id hid), ?_, ?_⟩
    · have hinj : ∀ a b : Nat, a < 3 → b < 3 → 3 - a = 3 - b → a = b := by omega
      exact fun id hid other hother => hinj id other (hlt id hid) (hlt other hother)
    · intro id' hid'
      have hid'' := hlt' id' hid'
      interval_cases id'
      · -- The block that was removed.
        cases hid'
      · exact ⟨2, rfl, rfl⟩
      · exact ⟨1, rfl, rfl⟩
      · exact ⟨0, rfl, rfl⟩
  have h : g.SameUpToIds g' (3 - ·) := {
    bijOn := hbij
    kind := by
      intro id hid
      have hid := hlt id hid
      interval_cases id <;> rfl
    links := by
      intro id hid socket
      have hid := hlt id hid
      interval_cases id <;> cases socket <;> rfl
    fields := by
      intro id b b' hb hb'
      have hid := hlt id (by simp [Live, hb])
      have hfields : (g'.block? (3 - id)).map (·.fields) = (g.block? id).map (·.fields) := by
        interval_cases id <;> rfl
      rw [hb, hb'] at hfields
      have hsame : b'.fields = b.fields := Option.some.inj hfields
      exact hsame ▸ .refl _
    roots := rfl
    pinned := .refl _ }
  exact ⟨h, saved_and_found_up_to_ids .standard _ _ h⟩

end Graph

end TaskDiagram
