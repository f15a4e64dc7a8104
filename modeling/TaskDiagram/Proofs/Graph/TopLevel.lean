import Mathlib.Data.List.Flatten
import Mathlib.Data.List.TakeWhile
import TaskDiagram.Proofs.Graph.Branches
import TaskDiagram.Proofs.Graph.Chains

/-! # What counts at the top level

The chain of every root counts or is reported as stray. The chains that count keep the
order of the roots, and at most one of them has controls, so the blocks of the program
are met once each and the controls are all behind one another.
-/

namespace TaskDiagram.Graph

variable {g : Graph} {id root : BlockId} {kind : BlockKind}

/-! ## Findings -/

/-- What is found about a diagram as it stands, apart from what was recorded while it was
loaded. -/
def found (g : Graph) (catalog : Option Catalog) : List Warning :=
  g.blocks.flatMap (fun (id, b) => g.blockFindings catalog id b) ++
    g.checkBranch none g.topLevel.stepBlocks ++
    g.topLevel.orphans.filterMap fun head =>
      (g.kind? head).map fun kind => .about head (.orphanChain kind)

theorem validate_eq (g : Graph) (catalog : Option Catalog) :
    g.validate catalog = g.pinned ++ g.found catalog := by
  simp only [validate, found, List.append_assoc]

/-- Chains that do not count are reported. -/
theorem orphanChain_mem_found {catalog : Option Catalog} (hkind : g.kind? root = some kind)
    (horphan : root ∈ g.topLevel.orphans) :
    .about root (.orphanChain kind) ∈ g.found catalog := by
  apply List.mem_append_right
  exact List.mem_filterMap.mpr ⟨root, horphan, by simp [hkind]⟩

/-- Findings about branches are found. -/
theorem mem_found_of_branch {catalog : Option Catalog} {w : Warning} {socket : SocketName}
    (hkind : g.kind? id = some kind) (hsocket : socket ∈ branchSockets kind)
    (hw : w ∈ g.branchFindings true [] (g.branch id socket)) : w ∈ g.found catalog := by
  obtain ⟨b, hb, rfl⟩ := Option.map_eq_some_iff.mp hkind
  apply List.mem_append_left
  apply List.mem_append_left
  refine List.mem_flatMap.mpr ⟨(id, b), mem_blocks.mpr hb, ?_⟩
  apply List.mem_append_right
  exact List.mem_flatMap.mpr ⟨socket, hsocket, List.mem_append_left _ hw⟩

theorem mem_found_of_top {catalog : Option Catalog} {w : Warning}
    (hw : w ∈ g.branchFindings false [] g.topLevel.stepBlocks) : w ∈ g.found catalog := by
  apply List.mem_append_left
  apply List.mem_append_right
  exact List.mem_append_left _ hw

/-- Only branches are searched for steps that stand there a second time. -/
theorem branch_of_duplicate_mem_found {catalog : Option Catalog} {step : StepKind}
    (h : .about id (.duplicateStep step) ∈ g.found catalog) :
    .about id (.duplicateStep step) ∈ g.branchFindings false [] g.topLevel.stepBlocks ∨
      ∃ owner kind socket, g.kind? owner = some kind ∧ socket ∈ branchSockets kind ∧
        .about id (.duplicateStep step) ∈ g.branchFindings true [] (g.branch owner socket) := by
  have hbranch : ∀ owner ids, .about id (.duplicateStep step) ∈ g.checkBranch owner ids →
      .about id (.duplicateStep step) ∈ g.branchFindings owner.isSome [] ids := by
    intro owner ids hmem
    refine (List.mem_append.mp hmem).resolve_right fun hmissing => ?_
    obtain ⟨other, hother⟩ := mem_missingSteps hmissing
    cases hother
  rcases List.mem_append.mp h with h | h
  · rcases List.mem_append.mp h with h | h
    · obtain ⟨⟨owner, b⟩, hb, hmem⟩ := List.mem_flatMap.mp h
      refine .inr ⟨owner, b.kind, ?_⟩
      rcases List.mem_append.mp hmem with hown | hmem
      · -- What is found about the block itself is of other kinds.
        simp only [List.mem_append, or_assoc] at hown
        rcases hown with hreference | hinput | hcount
        · obtain ⟨entity, name, hother⟩ := mem_referenceFindings hreference
          cases hother
        · obtain ⟨input, hother⟩ := mem_inputFindings hinput
          cases hother
        · cases mem_countFindings hcount
      · obtain ⟨socket, hsocket, hmem⟩ := List.mem_flatMap.mp hmem
        refine ⟨socket, ?_, hsocket, hbranch _ _ hmem⟩
        simp [kind?, mem_blocks.mp hb]
    · exact .inl (hbranch _ _ h)
  · simp [Warning.about, List.mem_filterMap] at h

/-! ## Sorting the roots -/

section Sorting

variable {taken : Bool} {roots : List BlockId}

/-- A block of `roots` either starts a chain that counts, which its kind must allow, or is an
orphan. -/
theorem place_of_mem_roots (hroot : root ∈ roots) (hkind : g.kind? root = some kind) :
    (g.grammar.isRoot kind = true ∧ g.rootChain root ∈ (g.topLevelOf taken roots).chains) ∨
      root ∈ (g.topLevelOf taken roots).orphans := by
  induction roots generalizing taken with
  | nil => cases hroot
  | cons head rest ih =>
      rw [topLevelOf]
      rcases List.mem_cons.mp hroot with rfl | hrest
      · simp only [hkind]
        cases hmay : g.grammar.isRoot kind with
        | false => exact .inr (by simp)
        | true => split <;> simp
      · cases g.kind? head with
        | none => exact ih hrest
        | some other =>
            dsimp only
            split
            · exact (ih hrest).imp_right (List.mem_cons_of_mem _)
            · exact (ih hrest).imp_left (And.imp_right (List.mem_cons_of_mem _))

theorem mem_chains_or_orphans (hroot : root ∈ roots) (hlive : g.Live root) :
    g.rootChain root ∈ (g.topLevelOf taken roots).chains ∨
      root ∈ (g.topLevelOf taken roots).orphans := by
  obtain ⟨kind, hkind⟩ := live_iff_kind?.mp hlive
  exact (place_of_mem_roots hroot hkind).imp_left And.right

/-- A block that may not stand at the top level starts no chain that counts. -/
theorem mem_orphans_of_not_root (hroot : root ∈ roots) (hkind : g.kind? root = some kind)
    (hnot : g.grammar.isRoot kind = false) : root ∈ (g.topLevelOf taken roots).orphans :=
  (place_of_mem_roots hroot hkind).resolve_left fun h => by simp [hnot] at h

/-- The chains that count keep the order of the roots. -/
theorem chains_sublist : (g.topLevelOf taken roots).chains.Sublist (roots.map g.rootChain) := by
  induction roots generalizing taken with
  | nil => exact .slnil
  | cons head rest ih =>
      rw [topLevelOf, List.map_cons]
      cases g.kind? head with
      | none => exact ih.cons _
      | some kind =>
          dsimp only
          split
          · exact ih.cons _
          · exact ih.cons_cons _

/-- The heads of chains that do not count keep the order of the roots. -/
theorem orphans_sublist : (g.topLevelOf taken roots).orphans.Sublist roots := by
  induction roots generalizing taken with
  | nil => exact .slnil
  | cons head rest ih =>
      rw [topLevelOf]
      cases g.kind? head with
      | none => exact ih.cons _
      | some kind =>
          dsimp only
          split
          · exact ih.cons_cons _
          · exact ih.cons _

/-- A chain that counts is that of a root which may stand at the top level. -/
theorem exists_of_mem_chains {chain : RootChain}
    (hchain : chain ∈ (g.topLevelOf taken roots).chains) :
    ∃ root ∈ roots, (∃ kind, g.kind? root = some kind ∧ g.grammar.isRoot kind = true) ∧
      chain = g.rootChain root := by
  induction roots generalizing taken with
  | nil => cases hchain
  | cons head rest ih =>
      have hlater : ∀ {taken}, chain ∈ (g.topLevelOf taken rest).chains →
          ∃ root ∈ head :: rest, (∃ kind, g.kind? root = some kind ∧ g.grammar.isRoot kind = true) ∧
            chain = g.rootChain root := by
        intro taken hrest
        obtain ⟨root, hroot, hcounts⟩ := ih hrest
        exact ⟨root, List.mem_cons_of_mem _ hroot, hcounts⟩
      rw [topLevelOf] at hchain
      cases hkind : g.kind? head with
      | none =>
          rw [hkind] at hchain
          exact hlater hchain
      | some kind =>
          simp only [hkind] at hchain
          split at hchain
          · exact hlater hchain
          next hcounts =>
            rcases List.mem_cons.mp hchain with rfl | hrest
            · rw [Bool.or_eq_true, not_or, Bool.not_eq_true', Bool.not_eq_false] at hcounts
              exact ⟨head, List.mem_cons_self, ⟨kind, hkind, hcounts.1⟩, rfl⟩
            · exact hlater hrest

theorem controls_of_taken {chain : RootChain} (hchain : chain ∈ (g.topLevelOf true roots).chains) :
    chain.controls = [] := by
  induction roots with
  | nil => cases hchain
  | cons head rest ih =>
      rw [topLevelOf] at hchain
      cases hkind : g.kind? head with
      | none =>
          rw [hkind] at hchain
          exact ih hchain
      | some kind =>
          simp only [hkind, Bool.true_and, Bool.true_or] at hchain
          split at hchain
          · exact ih hchain
          next hcounts =>
            rcases List.mem_cons.mp hchain with rfl | hchain
            · simp only [Bool.or_eq_true, not_or, Bool.not_eq_true', Bool.not_eq_false,
                List.isEmpty_iff] at hcounts
              exact hcounts.2
            · exact ih hchain

variable (g taken roots) in
/-- At most one of the chains that count has controls. -/
theorem flatMap_controls_eq : (g.topLevelOf taken roots).chains.flatMap (·.controls) = [] ∨
    ∃ chain ∈ (g.topLevelOf taken roots).chains, chain.controls ≠ [] ∧
      (g.topLevelOf taken roots).chains.flatMap (·.controls) = chain.controls := by
  induction roots generalizing taken with
  | nil => exact .inl rfl
  | cons head rest ih =>
      rw [topLevelOf]
      cases g.kind? head with
      | none => exact ih _
      | some kind =>
          dsimp only
          split
          · exact ih _
          · rw [List.flatMap_cons]
            cases hcontrols : (g.rootChain head).controls with
            | nil =>
                refine (ih _).imp id ?_
                rintro ⟨chain, hchain, hne, heq⟩
                exact ⟨chain, List.mem_cons_of_mem _ hchain, hne, heq⟩
            | cons first others =>
                -- Behind a chain with controls no other chain with controls counts.
                have hrest : (g.topLevelOf true rest).chains.flatMap (·.controls) = [] :=
                  List.flatMap_eq_nil_iff.mpr fun chain hchain => controls_of_taken hchain
                refine .inr ⟨_, List.mem_cons_self, by simp [hcontrols], ?_⟩
                simp [hrest, hcontrols]

end Sorting

/-! ## The blocks of the program -/

theorem exists_root_of_chain {chain : RootChain} (hchain : chain ∈ g.topLevel.chains) :
    ∃ root ∈ g.roots, chain = g.rootChain root := by
  obtain ⟨root, hroot, -, rfl⟩ := exists_of_mem_chains hchain
  exact ⟨root, hroot, rfl⟩

theorem mem_chain_of_mem_steps (hid : id ∈ (g.rootChain root).steps) : id ∈ g.chain root :=
  (List.takeWhile_sublist _).subset hid

theorem mem_chain_of_mem_controls (hid : id ∈ (g.rootChain root).controls) : id ∈ g.chain root :=
  (List.dropWhile_sublist _).subset hid

theorem not_logic_of_mem_steps (hid : id ∈ (g.rootChain root).steps) :
    g.isLogicBlock id = false := by
  simpa using List.mem_takeWhile_imp hid

namespace IsForest

theorem live_of_mem_stepBlocks (h : g.IsForest) : ∀ id ∈ g.topLevel.stepBlocks, g.Live id := by
  intro id hid
  obtain ⟨chain, hchain, hmem⟩ := List.mem_flatMap.mp hid
  obtain ⟨root, hroot, rfl⟩ := exists_root_of_chain hchain
  exact h.live_of_mem_chain (h.mem_roots.mp hroot).1 id (mem_chain_of_mem_steps hmem)

theorem live_of_mem_controlBlocks (h : g.IsForest) :
    ∀ id ∈ g.topLevel.controlBlocks, g.Live id := by
  intro id hid
  obtain ⟨chain, hchain, hmem⟩ := List.mem_flatMap.mp hid
  obtain ⟨root, hroot, rfl⟩ := exists_root_of_chain hchain
  exact h.live_of_mem_chain (h.mem_roots.mp hroot).1 id (mem_chain_of_mem_controls hmem)

theorem live_of_mem_orphans (h : g.IsForest) : ∀ id ∈ g.topLevel.orphans, g.Live id :=
  fun _ hid => (h.mem_roots.mp (orphans_sublist.subset hid)).1

/-- The chains of the roots meet no block twice. -/
theorem flatMap_chain_nodup (h : g.IsForest) : (g.roots.flatMap g.chain).Nodup := by
  refine List.nodup_flatMap.mpr ⟨fun root hroot => ?_, h.roots_nodup.imp_of_mem ?_⟩
  · exact h.chain_nodup (h.mem_roots.mp hroot).1
  · intro a b ha hb hne id hleft hright
    exact hne (h.head_unique (h.isHead_of_root hb) (h.isHead_of_root ha) hright hleft)

theorem stepBlocks_nodup (h : g.IsForest) : g.topLevel.stepBlocks.Nodup := by
  have hchains : g.topLevel.chains.Sublist (g.roots.map g.rootChain) := chains_sublist
  have hsteps := hchains.flatMap (·.steps)
  rw [List.flatMap_map] at hsteps
  refine h.flatMap_chain_nodup.sublist (hsteps.trans ?_)
  exact List.Sublist.flatMap_right _ fun root _ => List.takeWhile_sublist _

end IsForest

end TaskDiagram.Graph
