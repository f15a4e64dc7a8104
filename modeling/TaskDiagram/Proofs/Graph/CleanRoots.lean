import TaskDiagram.Proofs.Graph.Reloaded

/-! # The top level of a diagram without findings

There is at most one chain of steps and at most one chain of controls, and nothing
else. The program that is read from them is loaded into trees that look like these
chains.
-/

namespace TaskDiagram

/-- A list in which no two entries satisfy a condition has at most one that does. -/
theorem exists_filter_eq_toList {α : Type} {p : α → Bool} {l : List α}
    (h : l.Pairwise fun a b => ¬ (p a = true ∧ p b = true)) :
    ∃ x : Option α, l.filter p = x.toList := by
  have hfilter := h.filter p
  cases hl : l.filter p with
  | nil => exact ⟨none, rfl⟩
  | cons a rest =>
      cases rest with
      | nil => exact ⟨some a, rfl⟩
      | cons b rest =>
          have ha : a ∈ l.filter p := hl ▸ List.mem_cons_self
          have hb : b ∈ l.filter p := hl ▸ List.mem_cons_of_mem _ List.mem_cons_self
          rw [hl] at hfilter
          have hnot := (List.pairwise_cons.mp hfilter).1 b List.mem_cons_self
          exact absurd ⟨(List.mem_filter.mp ha).2, (List.mem_filter.mp hb).2⟩ hnot

/-- What gives nothing may be left out before anything is collected. -/
theorem flatMap_filter_of_nil {α β : Type} {f : α → List β} {p : α → Bool} {l : List α}
    (h : ∀ a ∈ l, p a = false → f a = []) : l.flatMap f = (l.filter p).flatMap f := by
  induction l with
  | nil => rfl
  | cons a rest ih =>
      have hrest := ih fun b hb => h b (List.mem_cons_of_mem _ hb)
      rw [List.flatMap_cons, hrest]
      cases ha : p a with
      | true => rw [List.filter_cons_of_pos ha, List.flatMap_cons]
      | false =>
          rw [List.filter_cons_of_neg (by rw [ha]; decide), h a List.mem_cons_self ha,
            List.nil_append]

/-- Where no control leaves a chain over, only the chain of controls stands there. -/
theorem Control.roots_eq_nest {cs : List Control} (h : ∀ c ∈ cs, c.strays = []) :
    Control.roots cs = (Tree.nest (Control.trees cs)).toList := by
  induction cs with
  | nil => rfl
  | cons c rest ih =>
      have hrest := fun other hother => h other (List.mem_cons_of_mem c hother)
      have hstrays : rest.flatMap Control.strays = [] := List.flatMap_eq_nil_iff.mpr hrest
      simp only [Control.roots, Control.trees, h c List.mem_cons_self, hstrays, List.append_nil,
        List.nil_append, List.filterMap_cons]
      cases hkind : c.kind? with
      | none => exact ih hrest
      | some kind => rfl

namespace Graph

variable {g : Graph}

/-- Without findings about stray chains every root starts a chain that is saved, and only one
of these chains has controls. -/
theorem of_no_orphans {taken : Bool} {roots : List BlockId} (hlive : ∀ root ∈ roots, g.Live root)
    (h : (g.topLevelOf taken roots).orphans = []) :
    (g.topLevelOf taken roots).chains = roots.map g.rootChain ∧
      (∀ root ∈ roots, ∃ kind, g.kind? root = some kind ∧ g.grammar.isRoot kind = true) ∧
      (roots.Pairwise fun a b =>
        ¬ ((g.rootChain a).controls ≠ [] ∧ (g.rootChain b).controls ≠ [])) ∧
      (taken = true → ∀ root ∈ roots, (g.rootChain root).controls = []) := by
  induction roots generalizing taken with
  | nil => exact ⟨rfl, nofun, .nil, nofun⟩
  | cons root rest ih =>
      have hliveRest := fun other hother => hlive other (List.mem_cons_of_mem root hother)
      obtain ⟨kind, hkind⟩ := live_iff_kind?.mp (hlive root List.mem_cons_self)
      rw [topLevelOf] at h ⊢
      simp only [hkind] at h ⊢
      split at h
      · cases h
      next hcounts =>
        rw [if_neg hcounts]
        rw [Bool.or_eq_true, not_or, Bool.not_eq_true', Bool.and_eq_true, Bool.not_eq_true'] at hcounts
        obtain ⟨hroot, hfirst⟩ := hcounts
        obtain ⟨hchains, hroots, hpairwise, htaken⟩ := ih hliveRest h
        refine ⟨congrArg _ hchains, ?_, List.pairwise_cons.mpr ⟨?_, hpairwise⟩, ?_⟩
        · intro other hother
          rcases List.mem_cons.mp hother with rfl | hother
          · exact ⟨kind, hkind, by simpa using hroot⟩
          · exact hroots other hother
        · rintro other hother ⟨hself, hcontrols⟩
          refine hcontrols (htaken ?_ other hother)
          simp [hself]
        · rintro rfl other hother
          rcases List.mem_cons.mp hother with rfl | hother
          · simpa using hfirst
          · exact htaken rfl other hother

namespace Clean

variable {id head root : BlockId} {kind : BlockKind}

theorem live_root (h : g.Clean) (hroot : root ∈ g.roots) : g.Live root :=
  (h.forest.mem_roots.mp hroot).1

/-- Every root is a pick or a logic block. -/
theorem root_cases (h : g.Clean) (hroot : root ∈ g.roots) :
    g.kind? root = some .pick ∨ ∃ kind, g.kind? root = some kind ∧ kind.isLogic = true := by
  have hlive : ∀ root ∈ g.roots, g.Live root := fun _ => h.live_root
  obtain ⟨-, hroots, -⟩ := of_no_orphans hlive h.no_orphans
  obtain ⟨kind, hkind, hcounts⟩ := hroots root hroot
  rw [h.grammar] at hcounts
  rw [hkind]
  cases kind <;> first | exact .inl rfl | exact .inr ⟨_, rfl, rfl⟩ | cases hcounts

theorem kind_of_not_logic (h : g.Clean) (hroot : root ∈ g.roots)
    (hlogic : g.isLogicBlock root = false) : g.kind? root = some .pick := by
  apply (h.root_cases hroot).resolve_right
  rintro ⟨kind, hkind, hself⟩
  rw [isLogicBlock, hkind, Option.map_some, Option.getD_some, hself] at hlogic
  cases hlogic

theorem stepBlocks_eq (h : g.Clean) : g.topLevel.stepBlocks = g.roots.flatMap g.leading := by
  have hlive : ∀ root ∈ g.roots, g.Live root := fun _ => h.live_root
  obtain ⟨hchains, -⟩ := of_no_orphans hlive h.no_orphans
  rw [TopLevel.stepBlocks, topLevel, hchains, List.flatMap_map]
  rfl

theorem controlBlocks_eq (h : g.Clean) :
    g.topLevel.controlBlocks = g.roots.flatMap fun root => (g.rootChain root).controls := by
  have hlive : ∀ root ∈ g.roots, g.Live root := fun _ => h.live_root
  obtain ⟨hchains, -⟩ := of_no_orphans hlive h.no_orphans
  rw [TopLevel.controlBlocks, topLevel, hchains, List.flatMap_map]

/-! ## The chain of steps -/

/-- A chain of steps has no logic block in it. -/
theorem not_logic_of_stepChain (h : g.Clean) (hchain : g.StepChain head) :
    ∀ id ∈ g.chain head, g.isLogicBlock id = false := by
  have hnot : ∀ {id : BlockId} {kind : BlockKind}, g.kind? id = some kind → kind.isLogic = false →
      g.isLogicBlock id = false := by
    intro id kind hkind hlogic
    rw [isLogicBlock, hkind]
    exact hlogic
  have hplace : ∀ {place : BlockId}, g.kind? place = some .place → g.chain place = [place] := by
    intro place hplace
    rw [h.forest.chain_eq (live_of_kind? hplace), branch_of_empty (h.next_of_place hplace)]
  obtain ⟨hpick, hrest⟩ := hchain
  rw [h.forest.chain_eq (live_of_kind? hpick)]
  rcases hrest with ⟨place, hnext, hlast⟩ | ⟨processing, place, hnext, hsecond, hthird, hlast⟩
  · rw [branch_of_child? hnext, hplace hlast]
    intro id hid
    rcases List.mem_cons.mp hid with rfl | hid
    · exact hnot hpick rfl
    · obtain rfl := List.mem_singleton.mp hid
      exact hnot hlast rfl
  · rw [branch_of_child? hnext, h.forest.chain_eq (live_of_kind? hsecond),
      branch_of_child? hthird, hplace hlast]
    intro id hid
    rcases List.mem_cons.mp hid with rfl | hid
    · exact hnot hpick rfl
    · rcases List.mem_cons.mp hid with rfl | hid
      · exact hnot hsecond rfl
      · obtain rfl := List.mem_singleton.mp hid
        exact hnot hlast rfl

theorem pick_mem_leading (h : g.Clean) (hkind : g.kind? root = some .pick) :
    .pick ∈ g.stepKinds (g.leading root) := by
  have hkind : g.kind? root = some (.ofStep .pick) := hkind
  rw [h.stepKinds_leading hkind]
  exact List.mem_cons_self

theorem nodup_stepBlocks (h : g.Clean) : (g.stepKinds g.topLevel.stepBlocks).Nodup := by
  have htop := h.topBranch
  rw [checkBranch, List.append_eq_nil_iff] at htop
  exact (branchFindings_eq_nil_iff.mp htop.1).1.1

/-- At most one root is a pick. -/
theorem exists_first (h : g.Clean) : ∃ first : Option BlockId,
    g.roots.filter (!g.isLogicBlock ·) = first.toList := by
  have hkinds : g.stepKinds g.topLevel.stepBlocks =
      g.roots.flatMap fun root => g.stepKinds (g.leading root) := by
    rw [h.stepBlocks_eq]
    exact List.filterMap_flatMap
  have hnodup := h.nodup_stepBlocks
  rw [hkinds, List.nodup_flatMap] at hnodup
  apply exists_filter_eq_toList
  apply hnodup.2.imp_of_mem
  -- Two such roots would be two picks, and no step stands at the top level twice.
  rintro a b ha hb hdisjoint ⟨hleft, hright⟩
  have hleft := h.pick_mem_leading (h.kind_of_not_logic ha (by simpa using hleft))
  have hright := h.pick_mem_leading (h.kind_of_not_logic hb (by simpa using hright))
  exact hdisjoint hleft hright

/-- The steps at the top level are those of one root, if there are any. -/
theorem exists_steps (h : g.Clean) : ∃ first : Option BlockId,
    g.roots.filter (!g.isLogicBlock ·) = first.toList ∧
      g.topLevel.stepBlocks = first.toList.flatMap g.leading ∧ ∀ head ∈ first, g.StepChain head := by
  obtain ⟨first, hfirst⟩ := h.exists_first
  have hblocks : g.topLevel.stepBlocks = first.toList.flatMap g.leading := by
    rw [h.stepBlocks_eq, ← hfirst]
    apply flatMap_filter_of_nil
    intro root hroot hlogic
    obtain ⟨kind, hkind⟩ := live_iff_kind?.mp (h.live_root hroot)
    apply h.leading_of_logic hkind
    simpa [isLogicBlock, hkind] using hlogic
  refine ⟨first, hfirst, hblocks, ?_⟩
  rintro head rfl
  have hhead : head ∈ g.roots.filter (!g.isLogicBlock ·) := hfirst ▸ List.mem_singleton.mpr rfl
  obtain ⟨hroot, hlogic⟩ := List.mem_filter.mp hhead
  have hkind := h.kind_of_not_logic hroot (by simpa using hlogic)
  have hpick := h.pick_mem_leading hkind
  have hnodup := h.nodup_stepBlocks
  have htop := h.topBranch
  rw [checkBranch, List.append_eq_nil_iff] at htop
  -- Its first step is there, so no step of a movement may be missing.
  have hmissing := htop.2
  rw [Option.toList_some, List.flatMap_singleton] at hblocks
  rw [hblocks] at hnodup hmissing
  obtain ⟨hmem, hplace⟩ := (missingSteps_eq_nil_iff.mp hmissing).resolve_left
    fun hnone => List.ne_nil_of_mem hpick hnone.2
  exact h.stepChain (.inl hkind) hnodup hmem hplace

/-! ## The chain of controls -/

theorem controls_of_logic (h : g.Clean) (hlogic : g.isLogicBlock id = true) :
    (g.rootChain id).controls = g.chain id := by
  have hlive : g.Live id := by
    cases hkind : g.kind? id with
    | none => simp [isLogicBlock, hkind] at hlogic
    | some kind => exact live_of_kind? hkind
  rw [rootChain, h.forest.chain_eq hlive, List.dropWhile_cons, if_neg (by simp [hlogic])]

/-- The controls at the top level are those of one root, if there are any. -/
theorem exists_controls (h : g.Clean) : ∃ second : Option BlockId,
    g.roots.filter g.isLogicBlock = second.toList ∧
      g.topLevel.controlBlocks = second.toList.flatMap g.chain := by
  have hlive : ∀ root ∈ g.roots, g.Live root := fun _ => h.live_root
  obtain ⟨-, -, hpairwise, -⟩ := of_no_orphans hlive h.no_orphans
  obtain ⟨second, hsecond⟩ : ∃ second : Option BlockId,
      g.roots.filter g.isLogicBlock = second.toList := by
    refine exists_filter_eq_toList (hpairwise.imp_of_mem ?_)
    rintro a b ha hb hnot ⟨hleft, hright⟩
    refine hnot ⟨?_, ?_⟩
    · rw [h.controls_of_logic hleft, h.forest.chain_eq (hlive a ha)]
      exact List.cons_ne_nil _ _
    · rw [h.controls_of_logic hright, h.forest.chain_eq (hlive b hb)]
      exact List.cons_ne_nil _ _
  refine ⟨second, hsecond, ?_⟩
  -- The chain of steps ends with a place, behind which no logic block can stand.
  have hnone : ∀ root ∈ g.roots, g.isLogicBlock root = false → (g.rootChain root).controls = [] := by
    intro root hroot hlogic
    obtain ⟨first, hfirst, -, hchain⟩ := h.exists_steps
    have hmem : root ∈ g.roots.filter (!g.isLogicBlock ·) :=
      List.mem_filter.mpr ⟨hroot, by simp [hlogic]⟩
    rw [hfirst, Option.mem_toList] at hmem
    apply List.dropWhile_eq_nil_iff.mpr
    intro other hother
    rw [h.not_logic_of_stepChain (hchain root hmem) other hother]
    rfl
  rw [h.controlBlocks_eq, flatMap_filter_of_nil hnone]
  have hcontrols : ∀ root ∈ g.roots.filter g.isLogicBlock, (g.rootChain root).controls = g.chain root :=
    fun root hroot => h.controls_of_logic (List.mem_filter.mp hroot).2
  rw [List.flatMap_congr hcontrols, hsecond]

/-- The trees of the saved program look like the roots, in some order. -/
theorem exists_roots (h : g.Clean) :
    ∃ roots, roots.Perm g.roots ∧ List.Forall₂ g.Resembles g.toProgram.trees roots := by
  obtain ⟨first, hfirst, hsteps, hchain⟩ := h.exists_steps
  obtain ⟨second, hsecond, hcontrols⟩ := h.exists_controls
  -- At most one root begins steps and at most one a chain of controls.
  have hperm := List.filter_append_perm (!g.isLogicBlock ·) g.roots
  simp only [Bool.not_not] at hperm
  rw [hfirst, hsecond] at hperm
  refine ⟨_, hperm, ?_⟩
  have hleft : List.Forall₂ g.Resembles g.toProgram.steps.tree?.toList first.toList ∧
      g.toProgram.steps.leadTo g.toProgram.controls = false := by
    have hread : g.toProgram.steps = g.readSteps g.topLevel.stepBlocks := rfl
    rw [hread, hsteps]
    cases first with
    | none => exact ⟨.nil, rfl⟩
    | some head =>
        obtain ⟨-, hplace, t, ht, hresembles⟩ := h.resembles_steps (hchain head rfl)
        rw [Option.toList_some, List.flatMap_singleton, ht]
        exact ⟨.cons hresembles .nil, Steps.leadTo_of_place hplace _⟩
  have hright : List.Forall₂ g.Resembles (Control.roots g.toProgram.controls) second.toList := by
    have hread : g.toProgram.controls = g.topLevel.controlBlocks.filterMap g.readControl := rfl
    rw [hread, hcontrols]
    cases second with
    | none => exact .nil
    | some head =>
        have hmem : head ∈ g.roots.filter g.isLogicBlock := hsecond ▸ List.mem_singleton.mpr rfl
        obtain ⟨hroot, hlogic⟩ := List.mem_filter.mp hmem
        obtain ⟨kind, hkind⟩ := live_iff_kind?.mp (h.live_root hroot)
        have hkept := h.keptControls_chain hkind (by simpa [isLogicBlock, hkind] using hlogic)
        rw [Option.toList_some, List.flatMap_singleton,
          Control.roots_eq_nest fun c hc => (hkept.whole c hc).2]
        obtain ⟨t, ht, hresembles⟩ := exists_of_rel_right hkept.resembles
        rw [ht]
        exact .cons hresembles .nil
  rw [Program.trees, if_neg (by rw [hleft.2]; decide)]
  exact List.rel_append hleft.1 hright

end Clean

end Graph

end TaskDiagram
