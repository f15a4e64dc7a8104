import TaskDiagram.Proofs.Graph.Branches
import TaskDiagram.Proofs.Graph.Saving
import TaskDiagram.Proofs.Graph.TopLevel

/-! # Findings see only the trees

Whether anything is found about a diagram as it stands can be told from the trees under its roots.
Each block is judged by its own fields, by what is plugged into it and by the steps in its
branches, and the roots by which of their chains count.
-/

namespace TaskDiagram

namespace Tree

/-- The kinds of the steps among the links of a branch. -/
def stepKinds (links : List Tree) : List StepKind := links.filterMap (·.kind.step?)

/-- The links of a branch are steps, both ends of a movement among them and none there twice. -/
structure FilledBranch (links : List Tree) : Prop where
  nodup : (stepKinds links).Nodup
  pick : .pick ∈ stepKinds links
  place : .place ∈ stepKinds links
  steps : ∀ link ∈ links, link.kind.isLogic = false

/-- Nothing is left to be done at the top block of a tree. -/
structure Settled (grammar : Grammar) (catalog : Option Catalog) (t : Tree) : Prop where
  reference : ∀ entity, t.kind.entity? = some entity →
    ∃ item, t.intField? fieldId = some item ∧
      ∀ library, catalog = some library → library.contains entity item = true
  inputs : ∀ spec, grammar.spec? t.kind = some spec →
    ∀ s ∈ spec.sockets, s.required = true → (t.child? s.name).isSome
  count : t.kind = .repeated → (t.fields.get? fieldTimes).isSome
  branches : ∀ socket ∈ Graph.branchSockets t.kind, FilledBranch (t.branch socket)

mutual

/-- Nothing is left to be done at any block of a tree. -/
def AllSettled (grammar : Grammar) (catalog : Option Catalog) : Tree → Prop
  | node kind fields inputs =>
      (node kind fields inputs).Settled grammar catalog ∧ AllSettledIn grammar catalog inputs

/-- Nothing is left to be done at any block of what is plugged into sockets. -/
def AllSettledIn (grammar : Grammar) (catalog : Option Catalog) : List (SocketName × Tree) → Prop
  | [] => True
  | (_, t) :: rest => t.AllSettled grammar catalog ∧ AllSettledIn grammar catalog rest

end

variable {grammar : Grammar} {catalog : Option Catalog}

/-- Nothing is left to be done in a tree when nothing is at its top and in what is plugged in there.
-/
theorem allSettled_iff {t : Tree} : t.AllSettled grammar catalog ↔
    t.Settled grammar catalog ∧ AllSettledIn grammar catalog t.inputs := by
  obtain ⟨kind, fields, inputs⟩ := t
  rw [AllSettled]
  rfl

theorem allSettledIn_iff {inputs : List (SocketName × Tree)} :
    AllSettledIn grammar catalog inputs ↔ ∀ entry ∈ inputs, entry.2.AllSettled grammar catalog := by
  induction inputs with
  | nil => simp [AllSettledIn]
  | cons entry rest ih => simp [AllSettledIn, ih]

theorem AllSettled.child? {t u : Tree} {socket : SocketName} (h : t.AllSettled grammar catalog)
    (hu : t.child? socket = some u) : u.AllSettled grammar catalog := by
  obtain ⟨entry, hentry, rfl⟩ := Option.map_eq_some_iff.mp hu
  exact allSettledIn_iff.mp (allSettled_iff.mp h).2 entry (List.mem_of_find?_eq_some hentry)

theorem allSettledIn_inSocket (socket : SocketName) {content : Option Tree} :
    AllSettledIn grammar catalog (inSocket socket content) ↔
      ∀ u, content = some u → u.AllSettled grammar catalog := by
  cases content <;> simp [allSettledIn_iff, inSocket]

/-- What counts at the top level are some of the trees, in their order. -/
theorem counted_sublist (grammar : Grammar) (taken : Bool) (ts : List Tree) :
    (counted grammar taken ts).Sublist ts := by
  induction ts generalizing taken with
  | nil => exact .slnil
  | cons t rest ih =>
      rw [counted]
      split
      · exact (ih taken).cons t
      · exact (ih _).cons_cons t

/-- Every tree counts at the top level, and the steps there make up a movement, if there are
any. -/
structure FilledTop (grammar : Grammar) (ts : List Tree) : Prop where
  counted : counted grammar false ts = ts
  nodup : (stepKinds (ts.flatMap leading)).Nodup
  ends : stepKinds (ts.flatMap leading) = [] ∨
    (.pick ∈ stepKinds (ts.flatMap leading) ∧ .place ∈ stepKinds (ts.flatMap leading))

end Tree

namespace Graph

variable {g : Graph} {lo hi : Nat} {catalog : Option Catalog}

/-! ## Branches -/

section Branch

variable {ts : List Tree} {ids : List BlockId} (h : List.Forall₂ (g.ShowsLink lo hi) ts ids)

include h

theorem stepKinds_eq : g.stepKinds ids = Tree.stepKinds ts := by
  unfold stepKinds Tree.stepKinds
  induction h with
  | nil => rfl
  | cons hlink _ ih =>
      rw [List.filterMap_cons, List.filterMap_cons, ih, hlink.kind]
      rfl

theorem forall_isLogicBlock_eq : (∀ id ∈ ids, g.isLogicBlock id = false) ↔
    ∀ t ∈ ts, t.kind.isLogic = false := by
  induction h with
  | nil => simp
  | cons hlink _ ih => simp [isLogicBlock_eq hlink, ih]

/-- Nothing is found about a branch of a block when it is filled. -/
theorem checkBranch_eq_nil_iff (owner : BlockId) :
    g.checkBranch (some owner) ids = [] ↔ Tree.FilledBranch ts := by
  rw [checkBranch, List.append_eq_nil_iff, branchFindings_eq_nil_iff, missingSteps_eq_nil_iff,
    forall_isLogicBlock_eq h, stepKinds_eq h]
  constructor
  · rintro ⟨⟨⟨hnodup, -⟩, hlogic⟩, hends⟩
    obtain ⟨hpick, hplace⟩ := hends.resolve_left nofun
    exact ⟨hnodup, hpick, hplace, hlogic rfl⟩
  · rintro ⟨hnodup, hpick, hplace, hlogic⟩
    exact ⟨⟨⟨hnodup, fun _ _ => List.not_mem_nil⟩, fun _ => hlogic⟩, .inr ⟨hpick, hplace⟩⟩

end Branch

/-! ## Single blocks -/

theorem ne_next_of_mem_branchSockets {kind : BlockKind} {socket : SocketName}
    (h : socket ∈ branchSockets kind) : socket ≠ .next := by
  rintro rfl
  revert h
  cases kind <;> decide

/-- The blocks of a branch show the links of the branch of the tree. -/
theorem Shows.branch (hg : g.IsForest) {t : Tree} {id : Nat} (h : g.Shows lo hi t id)
    {socket : SocketName} (hs : socket ≠ .next) :
    List.Forall₂ (g.ShowsLink lo hi) (t.branch socket) (g.branch id socket) := by
  have hlink : t.link.branch socket = t.branch socket := by
    rw [Tree.branch, Tree.child?_link, if_neg hs]
    rfl
  exact hlink ▸ h.link.branch hg socket hs

section Block

variable {id : BlockId} {b : Block} {t : Tree}

/-- Nothing is found about a block when nothing is left to be done at it. -/
theorem Shows.blockFindings_eq_nil_iff (hg : g.IsForest) (h : g.Shows lo hi t id)
    (hb : g.block? id = some b) :
    g.blockFindings catalog id b = [] ↔ t.Settled g.grammar catalog := by
  obtain ⟨b', hb', hkind, hfields⟩ := h.block
  obtain rfl := Option.some.inj (hb.symm.trans hb')
  have hint : ∀ name, b.intField? name = t.intField? name := fun name => by
    rw [Block.intField?, Block.field?, hfields, Tree.intField?]
  have hchild : ∀ socket, (b.inputs.get? socket).isSome = (t.child? socket).isSome := by
    intro socket
    have hcontent : g.child? id socket = b.inputs.get? socket := by rw [Graph.child?, hb]; rfl
    rw [← hcontent]
    rcases rel_cases (h.child? socket) with ⟨ht, hc⟩ | ⟨_, _, ht, hc, -⟩ <;> rw [ht, hc] <;> rfl
  have hbranch : ∀ socket ∈ branchSockets t.kind,
      (g.checkBranch (some id) (g.branch id socket) = [] ↔
        Tree.FilledBranch (t.branch socket)) := by
    intro socket hsocket
    exact checkBranch_eq_nil_iff (h.branch hg (ne_next_of_mem_branchSockets hsocket)) id
  rw [blockFindings, List.append_eq_nil_iff, List.append_eq_nil_iff, List.append_eq_nil_iff,
    List.flatMap_eq_nil_iff, referenceFindings_eq_nil_iff, inputFindings_eq_nil_iff,
    countFindings_eq_nil_iff, Block.field?, hkind, hfields, hint]
  simp only [hchild]
  constructor
  · rintro ⟨⟨⟨hreference, hinputs⟩, hcount⟩, hbranches⟩
    exact ⟨hreference, hinputs, hcount,
      fun socket hs => (hbranch socket hs).mp (hbranches socket hs)⟩
  · rintro ⟨hreference, hinputs, hcount, hbranches⟩
    exact ⟨⟨⟨hreference, hinputs⟩, hcount⟩,
      fun socket hs => (hbranch socket hs).mpr (hbranches socket hs)⟩

end Block

/-! ## Whole trees -/

mutual

/-- When nothing is found about blocks, nothing is left to be done in the trees they show. -/
theorem Shows.allSettled (hg : g.IsForest)
    (hsilent : ∀ id b, g.block? id = some b → g.blockFindings catalog id b = []) :
    ∀ {t : Tree} {id : Nat}, g.Shows lo hi t id → t.AllSettled g.grammar catalog
  | _, id, .node hlo hhi hface hinputs => by
      have h := Shows.node hlo hhi hface hinputs
      obtain ⟨b, hb, -⟩ := h.block
      rw [Tree.AllSettled]
      have hself := (h.blockFindings_eq_nil_iff hg hb).mp (hsilent id b hb)
      exact ⟨hself, hinputs.allSettledIn hg hsilent⟩

theorem ShowsInputs.allSettledIn (hg : g.IsForest)
    (hsilent : ∀ id b, g.block? id = some b → g.blockFindings catalog id b = []) :
    ∀ {inputs : List (SocketName × Tree)} {links : List (SocketName × BlockId)},
      g.ShowsInputs lo hi inputs links → Tree.AllSettledIn g.grammar catalog inputs
  | _, _, .nil => by rw [Tree.AllSettledIn]; trivial
  | _, _, .cons hchild hrest => by
      rw [Tree.AllSettledIn]
      exact ⟨hchild.allSettled hg hsilent, hrest.allSettledIn hg hsilent⟩

end

/-- Nothing is found about any block when nothing is left to be done in any tree. -/
theorem IsForest.blockFindings_eq_nil_iff (hg : g.IsForest) :
    (∀ id b, g.block? id = some b → g.blockFindings catalog id b = []) ↔
      ∀ t ∈ g.forest, t.AllSettled g.grammar catalog := by
  have hforest := hg.forall₂_forest
  constructor
  · intro hsilent t ht
    obtain ⟨root, -, hshows⟩ := exists_of_mem_left hforest ht
    exact hshows.allSettled hg hsilent
  · intro hsettled id b hb
    -- Every block shows a tree, and what is plugged into it shows what is plugged into the tree.
    have hshown : ∃ t, g.Shows 0 g.nextId t id ∧ t.AllSettled g.grammar catalog := by
      refine hg.forall_live (P := fun id => ∃ t, g.Shows 0 g.nextId t id ∧
        t.AllSettled g.grammar catalog) ?_ ?_ (Option.isSome_of_eq_some hb)
      · intro root hroot
        obtain ⟨t, ht, hshows⟩ := exists_of_mem_right hforest hroot
        exact ⟨t, hshows, hsettled t ht⟩
      · rintro parent socket child ⟨t, hshows, ht⟩ hc
        have hrel := hshows.child? socket
        rw [hc] at hrel
        obtain ⟨u, hu, hchild⟩ := exists_of_rel_right hrel
        exact ⟨u, hchild, ht.child? hu⟩
    obtain ⟨t, hshows, ht⟩ := hshown
    exact (hshows.blockFindings_eq_nil_iff hg hb).mpr (Tree.allSettled_iff.mp ht).1

/-! ## The top level -/

/-- No chain is stray when every tree counts. -/
theorem orphans_eq_nil_iff (hg : g.IsForest) {taken : Bool} {ts : List Tree} {ids : List BlockId}
    (h : List.Forall₂ (g.Shows lo hi) ts ids) :
    (g.topLevelOf taken ids).orphans = [] ↔ Tree.counted g.grammar taken ts = ts := by
  induction h generalizing taken with
  | nil => simp [topLevelOf, Tree.counted]
  | cons hshows _ ih =>
      rename_i t id ts ids _
      rw [topLevelOf, hshows.kind, Tree.counted]
      simp only [(showsRoot hg hshows).isEmpty_controls]
      split
      next =>
        -- A tree that is left out makes the list shorter.
        have hshorter := (Tree.counted_sublist g.grammar taken ts).length_le
        refine iff_of_false (List.cons_ne_nil _ _) fun heq => ?_
        rw [heq, List.length_cons] at hshorter
        omega
      next => rw [ih, List.cons_inj_right]

/-- Nothing is found about the top level when it is filled. -/
theorem IsForest.topFindings_eq_nil_iff (hg : g.IsForest) :
    (g.checkBranch none g.topLevel.stepBlocks = [] ∧ g.topLevel.orphans = []) ↔
      Tree.FilledTop g.grammar g.forest := by
  have hforest := hg.forall₂_forest
  have hsteps := forall₂_flatMap (fun _ _ h => ShowsRoot.steps h)
    (forall₂_topLevelOf hg false hforest)
  have hkinds : g.stepKinds g.topLevel.stepBlocks =
      Tree.stepKinds ((Tree.counted g.grammar false g.forest).flatMap Tree.leading) :=
    stepKinds_eq hsteps
  have horphans : g.topLevel.orphans = [] ↔ Tree.counted g.grammar false g.forest = g.forest :=
    orphans_eq_nil_iff hg hforest
  rw [horphans, checkBranch, List.append_eq_nil_iff, branchFindings_eq_nil_iff,
    missingSteps_eq_nil_iff, hkinds]
  constructor
  · rintro ⟨⟨⟨⟨hnodup, -⟩, -⟩, hends⟩, hcounted⟩
    rw [hcounted] at hnodup hends
    exact ⟨hcounted, hnodup, hends.imp_left And.right⟩
  · rintro ⟨hcounted, hnodup, hends⟩
    rw [hcounted]
    exact ⟨⟨⟨⟨hnodup, fun _ _ => List.not_mem_nil⟩, nofun⟩, hends.imp_left fun h => ⟨rfl, h⟩⟩, rfl⟩

/-- Nothing is found about a diagram as it stands when nothing is left to be done in its trees and
at its top level. -/
theorem IsForest.found_eq_nil_iff (hg : g.IsForest) : g.found catalog = [] ↔
    (∀ t ∈ g.forest, t.AllSettled g.grammar catalog) ∧ Tree.FilledTop g.grammar g.forest := by
  have horphans : (g.topLevel.orphans.filterMap fun head =>
      (g.kind? head).map fun kind => Warning.about head (.orphanChain kind)) = [] ↔
        g.topLevel.orphans = [] := by
    rw [List.filterMap_eq_nil_iff, List.eq_nil_iff_forall_not_mem]
    refine forall₂_congr fun head hhead => ?_
    obtain ⟨kind, hkind⟩ := live_iff_kind?.mp (hg.live_of_mem_orphans head hhead)
    simp [hkind]
  rw [found, List.append_eq_nil_iff, List.append_eq_nil_iff, horphans, and_assoc,
    hg.topFindings_eq_nil_iff, List.flatMap_eq_nil_iff, Prod.forall, ← hg.blockFindings_eq_nil_iff]
  simp only [mem_blocks]

end Graph

end TaskDiagram
