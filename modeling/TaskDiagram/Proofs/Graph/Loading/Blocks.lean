import TaskDiagram.Proofs.Program.Normal

/-! # Blocks of loaded programs

The first step of a program becomes a root, and every control of known type becomes a
logic block, wherever the chain of controls is attached.
-/

namespace TaskDiagram

/-- Links that are put into one chain are found in it. -/
theorem Tree.exists_mem_chain {links : List Tree} (hopen : ∀ t ∈ links, t.OpenAt .next)
    {link : Tree} (hlink : link ∈ links) : ∃ t ∈ nest links, link ∈ t.chain := by
  have hchain := chain_nest hopen
  cases hnest : nest links with
  | none =>
      rw [hnest] at hchain
      obtain rfl : [] = links := hchain
      cases hlink
  | some t =>
      rw [hnest] at hchain
      have hchain : t.chain = links := hchain
      exact ⟨t, rfl, hchain ▸ hlink⟩

variable {p : Program} {c : Control} {kind : BlockKind}

theorem Control.tree_mem_trees {cs : List Control} (hc : c ∈ cs) (hkind : c.kind? = some kind) :
    c.tree kind ∈ trees cs :=
  List.mem_filterMap.mpr ⟨c, hc, by rw [hkind]; rfl⟩

/-- A chain of controls that stands on its own has all of them in it. -/
theorem Control.exists_root {cs : List Control} (hc : c ∈ cs) (hkind : c.kind? = some kind) :
    ∃ t ∈ roots cs, c.tree kind ∈ t.chain := by
  induction cs with
  | nil => cases hc
  | cons first rest ih =>
      cases hfirst : first.kind? with
      | none =>
          have hne : c ≠ first := by
            rintro rfl
            rw [hfirst] at hkind
            cases hkind
          obtain ⟨t, ht, hmem⟩ := ih ((List.mem_cons.mp hc).resolve_left hne)
          refine ⟨t, ?_, hmem⟩
          rw [roots, hfirst]
          exact List.mem_append_right _ ht
      | some firstKind =>
          have htrees : trees (first :: rest) = first.tree firstKind :: trees rest := by
            simp [trees, hfirst]
          obtain ⟨t, ht, hmem⟩ :=
            Tree.exists_mem_chain (openAt_controlTrees (first :: rest)) (tree_mem_trees hc hkind)
          refine ⟨t, ?_, hmem⟩
          rw [roots, hfirst]
          rw [htrees] at ht
          exact List.mem_append_left _ (List.mem_append_left _ (Option.mem_toList.mpr ht))

namespace Program

/-- Every control of known type is in the chain of a tree. -/
theorem exists_tree_of_control (hc : c ∈ p.controls) (hkind : c.kind? = some kind) :
    ∃ t ∈ p.trees, c.tree kind ∈ t.chain := by
  unfold trees
  split
  · obtain ⟨t, ht, hmem⟩ := Tree.exists_mem_chain (openAt_links p.steps p.controls)
      (List.mem_append_right _ (Control.tree_mem_trees hc hkind))
    exact ⟨t, List.mem_append_left _ (Option.mem_toList.mpr ht), hmem⟩
  · obtain ⟨t, ht, hmem⟩ := Control.exists_root hc hkind
    exact ⟨t, List.mem_append_right _ ht, hmem⟩

/-- The first step at the top level begins a tree. -/
theorem exists_tree_of_first (hfirst : p.steps.first? = some kind) :
    ∃ t ∈ p.trees, t.kind = kind := by
  rw [Steps.first?_eq] at hfirst
  obtain ⟨t, ht, rfl⟩ := Option.map_eq_some_iff.mp hfirst
  unfold trees
  split
  · unfold Steps.tree? at ht
    cases htrees : p.steps.trees with
    | nil =>
        rw [htrees] at ht
        cases ht
    | cons link rest =>
        rw [htrees, Tree.nest_cons] at ht
        obtain rfl := Option.some.inj ht
        exact ⟨_, List.mem_append_left _ List.mem_cons_self, rfl⟩
  · exact ⟨t, List.mem_append_left _ (Option.mem_toList.mpr ht), rfl⟩

end Program

namespace Graph

variable (layout : Layout)

theorem exists_root_ofProgram {t : Tree} (ht : t ∈ p.trees) :
    ∃ root ∈ (ofProgram .standard layout p).roots,
      (ofProgram .standard layout p).Shows 0 (ofProgram .standard layout p).nextId t root := by
  rw [← forest_ofProgram layout p] at ht
  exact exists_of_mem_left (isForest_ofProgram layout p).forall₂_forest ht

/-- The first step at the top level is a root. -/
theorem exists_root_of_first (hfirst : p.steps.first? = some kind) :
    ∃ root ∈ (ofProgram .standard layout p).roots,
      (ofProgram .standard layout p).kind? root = some kind := by
  obtain ⟨t, ht, rfl⟩ := Program.exists_tree_of_first hfirst
  obtain ⟨root, hroot, hshows⟩ := exists_root_ofProgram layout ht
  exact ⟨root, hroot, hshows.kind⟩

/-- Every control of known type is a logic block. -/
theorem exists_link_of_control (hc : c ∈ p.controls) (hkind : c.kind? = some kind) :
    ∃ id, (ofProgram .standard layout p).ShowsLink 0 (ofProgram .standard layout p).nextId
      (c.tree kind) id := by
  obtain ⟨t, ht, hmem⟩ := Program.exists_tree_of_control hc hkind
  obtain ⟨root, -, hshows⟩ := exists_root_ofProgram layout ht
  have hchain := (isForest_ofProgram layout p).forall₂_chain hshows
  obtain ⟨id, -, hlink⟩ := exists_of_mem_left hchain hmem
  exact ⟨id, hlink⟩

end Graph

end TaskDiagram
