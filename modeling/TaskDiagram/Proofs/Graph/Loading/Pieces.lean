import TaskDiagram.Proofs.Graph.RoundTrip
import TaskDiagram.Proofs.Program.Leaves

/-! # The pieces of a loaded program

Up to their order the trees of a loaded program are the chains of its steps and of its controls,
joined where the grammar lets them, and beside them the chains that no socket accepts. So what a
program is loaded into is a matter of these pieces, and its blocks are counted piece by piece.
-/

namespace TaskDiagram

/-! ## Pieces -/

/-- The chains of the steps and of the controls, one behind the other where the grammar lets
them. -/
def Program.chains (p : Program) : List Tree :=
  if p.steps.leadTo p.controls then (Tree.nest (p.steps.trees ++ Control.trees p.controls)).toList
  else p.steps.tree?.toList ++ (Tree.nest (Control.trees p.controls)).toList

/-- The roots that controls are loaded into are their chain and what is left beside it. -/
theorem Control.roots_perm (cs : List Control) :
    (roots cs).Perm ((Tree.nest (trees cs)).toList ++ cs.flatMap strays) := by
  induction cs with
  | nil => exact .refl _
  | cons c rest ih =>
      rw [roots, List.flatMap_cons]
      cases hkind : c.kind? with
      | none =>
          -- What a control without a block leaves over stands in front of the chain behind it.
          have htrees : trees (c :: rest) = trees rest := by simp [trees, hkind]
          rw [htrees]
          exact (ih.append_left _).trans (List.perm_append_comm_assoc _ _ _)
      | some kind =>
          have htrees : trees (c :: rest) = c.tree kind :: trees rest := by simp [trees, hkind]
          rw [htrees, ← List.append_assoc]

/-- The trees of a program are its two chains, joined or not, and what is left beside them. -/
theorem Program.trees_perm (p : Program) :
    p.trees.Perm (p.chains ++ p.controls.flatMap Control.strays) := by
  rw [trees, chains]
  split
  · exact .refl _
  · rw [List.append_assoc]
    exact (Control.roots_perm p.controls).append_left _

theorem Control.map_kind_trees (cs : List Control) :
    (trees cs).map Tree.kind = cs.filterMap kind? := by
  rw [trees, List.map_filterMap]
  refine List.filterMap_congr fun c _ => ?_
  cases c.kind? <;> rfl

/-- Two chains of controls are loaded into the same pieces. -/
structure Control.SamePieces (cs ds : List Control) : Prop where
  trees_eq : trees cs = trees ds
  strays_eq : cs.flatMap strays = ds.flatMap strays

theorem Control.SamePieces.trans {cs ds es : List Control} (h : SamePieces cs ds)
    (h' : SamePieces ds es) : SamePieces cs es :=
  ⟨h.trees_eq.trans h'.trees_eq, h.strays_eq.trans h'.strays_eq⟩

/-- Where the chain of controls goes on is decided by the kind of its first logic block. -/
theorem Control.SamePieces.leadTo_eq {cs ds : List Control} (h : SamePieces cs ds) (s : Steps) :
    s.leadTo cs = s.leadTo ds := by
  have hkinds : cs.filterMap kind? = ds.filterMap kind? := by
    rw [← map_kind_trees, h.trees_eq, map_kind_trees]
  unfold Steps.leadTo
  rw [← List.head?_filterMap, ← List.head?_filterMap, hkinds]

/-- Programs with the same steps and the same pieces of controls are loaded into the same trees. -/
theorem Program.perm_of_samePieces {p q : Program} (hsteps : p.steps = q.steps)
    (h : Control.SamePieces p.controls q.controls) : p.trees.Perm q.trees := by
  have hchains : p.chains = q.chains := by
    rw [chains, chains, hsteps, h.leadTo_eq, h.trees_eq]
  have hpieces := p.trees_perm
  rw [hchains, h.strays_eq] at hpieces
  exact hpieces.trans q.trees_perm.symm

/-- Loaded programs are isomorphic when their trees are the same in some order. -/
theorem Graph.isIsomorphic_ofProgram_iff {layout layout' : Layout} {p q : Program} :
    (ofProgram .standard layout p).isIsomorphic (ofProgram .standard layout' q) = true ↔
      p.trees.Perm q.trees := by
  rw [isIsomorphic, forest_ofProgram, forest_ofProgram]
  exact Tree.sameForest_iff_perm (exact_trees p)

/-! ## Controls that are loaded alike -/

/-- Two controls are loaded into the same logic block, with the same chains beside it. -/
structure Control.Alike (c d : Control) : Prop where
  tree_eq : c.kind?.map c.tree = d.kind?.map d.tree
  strays_eq : c.strays = d.strays

/-- The block of an event is decided by the leaves of the event, whether its records are there
or not. -/
theorem Event.bind_tree?_congr {a b : Option Event} (htype : a.bind (·.type) = b.bind (·.type))
    (htarget : (a.bind (·.findObject)).getD .blank = (b.bind (·.findObject)).getD .blank) :
    a.bind tree? = b.bind tree? := by
  have hread : ∀ o : Option Event, o.bind tree? =
      tree? ⟨o.bind (·.type), some ((o.bind (·.findObject)).getD .blank)⟩ := by
    intro o
    cases o with
    | none => rfl
    | some e => rfl
  rw [hread a, hread b, htype, htarget]

/-- Controls with the same leaves are loaded alike when the same steps are there: unless nothing is
set in the control, those of its own, and those of its second branch where its block has one. -/
theorem Control.Alike.of_leaf? {c d : Control} (hleaf : ∀ leaf, c.leaf? leaf = d.leaf? leaf)
    (hsteps : ¬ (c.type = none ∧ c.isUnset) → c.steps = d.steps)
    (hsecond : c.kind? = some .whenOtherwise → c.otherwise.getD .empty = d.otherwise.getD .empty) :
    c.Alike d := by
  have htype : c.type = d.type := type_congr hleaf
  have htimes : c.times = d.times := times_congr hleaf
  have hevent : c.event.bind Event.tree? = d.event.bind Event.tree? :=
    Event.bind_tree?_congr (eventType_congr hleaf)
      (Reference.getD_blank_congr fun leaf => hleaf (.target leaf))
  have hunset : c.isUnset = d.isUnset := isUnset_congr hleaf
  have hkind : c.kind? = d.kind? := by rw [kind?, kind?, htype]
  cases hc : c.kind? with
  | none =>
      have hstrays : c.strays = d.strays := by
        simp only [strays, ← hkind, hc, ← htype, ← hunset]
        split
        next => rfl
        next hkept => rw [hsteps hkept]
      exact ⟨by rw [← hkind, hc]; rfl, hstrays⟩
  | some kind =>
      -- A control that has a block has a type, so its steps count.
      have hkept : ¬ (c.type = none ∧ c.isUnset) := by
        rintro ⟨hnone, -⟩
        rw [kind?, hnone] at hc
        cases hc
      have hfields : c.fields kind = d.fields kind := by simp only [fields, htimes]
      have hguard : (c.guard? kind).bind Event.tree? = (d.guard? kind).bind Event.tree? := by
        unfold guard?
        split
        next => exact hevent
        next => rfl
      have hbranch : c.second kind = d.second kind := by
        unfold second
        split
        next hlast => exact hsecond (hlast ▸ hc)
        next => rfl
      have htree : c.tree kind = d.tree kind := by
        simp only [tree, hfields, hguard, hbranch, hsteps hkept]
      have hstrays : c.strays = d.strays := by
        simp only [strays, refused, ← hkind, hc, hbranch, hsteps hkept]
      exact ⟨by rw [← hkind, hc]; exact congrArg some htree, hstrays⟩

/-- Controls that are loaded alike, one for one, are the same pieces. -/
theorem Control.samePieces_map {f g : Control → Control} {cs : List Control}
    (h : ∀ c ∈ cs, (f c).Alike (g c)) : SamePieces (cs.map f) (cs.map g) where
  trees_eq := by
    unfold Control.trees
    rw [List.filterMap_map, List.filterMap_map]
    exact List.filterMap_congr fun c hc => (h c hc).tree_eq
  strays_eq := by
    rw [List.flatMap_map, List.flatMap_map]
    exact List.flatMap_congr fun c hc => (h c hc).strays_eq

theorem Control.samePieces_map_self {f : Control → Control} {cs : List Control}
    (h : ∀ c ∈ cs, (f c).Alike c) : SamePieces (cs.map f) cs := by
  have halike := samePieces_map (g := id) h
  rwa [List.map_id] at halike

/-! ## Counting blocks -/

namespace Tree

/-- The number of nodes of some trees. -/
def total (ts : List Tree) : Nat := (ts.map size).sum

theorem total_append (ts us : List Tree) : total (ts ++ us) = total ts + total us := by
  simp [total]

theorem total_perm {ts us : List Tree} (h : ts.Perm us) : total ts = total us :=
  (h.map size).sum_nat

/-- Trees that are kept of some items are counted item by item. -/
theorem total_filterMap {α : Type} (f : α → Option Tree) (items : List α) :
    total (items.filterMap f) = (items.map fun a => total (f a).toList).sum := by
  induction items with
  | nil => rfl
  | cons a rest ih =>
      rw [List.map_cons, List.sum_cons, ← ih, ← total_append, List.filterMap_cons]
      cases f a <;> rfl

theorem sizeList_append (left right : List (SocketName × Tree)) :
    sizeList (left ++ right) = sizeList left + sizeList right := by
  induction left with
  | nil => simp [sizeList]
  | cons entry rest ih => simp [sizeList, ih, Nat.add_assoc]

/-- Plugging a tree in adds its nodes. -/
theorem size_plug (t : Tree) (socket : SocketName) (content : Option Tree) :
    (t.plug socket content).size = t.size + total content.toList := by
  obtain ⟨kind, fields, inputs⟩ := t
  have hcontent : sizeList (inSocket socket content) = total content.toList := by
    cases content <;> simp [inSocket, sizeList, total]
  rw [plug, size, size, Tree.inputs, sizeList_append, hcontent, Nat.add_right_comm]

/-- Chaining links keeps their number. -/
theorem total_nest (links : List Tree) : total (nest links).toList = total links := by
  induction links with
  | nil => rfl
  | cons link rest ih =>
      have hplug := link.size_plug .next (nest rest)
      rw [ih] at hplug
      simpa [nest_cons, total] using hplug

end Tree

open TaskDiagram.Tree (total total_append total_filterMap total_nest size_plug)

/-- The number of blocks that steps are loaded into. -/
def Steps.blockCount (s : Steps) : Nat := total s.trees

/-- The blocks of steps are counted step by step. -/
theorem Steps.blockCount_eq (s : Steps) : s.blockCount =
    (StepKind.all.map fun kind => total ((s.get kind).map (Tree.ofStep kind)).toList).sum := by
  have htrees : s.trees =
      StepKind.all.filterMap fun kind => (s.get kind).map (Tree.ofStep kind) := by
    rw [trees, toList, List.map_filterMap]
    exact List.filterMap_congr fun kind _ => Option.map_map ..
  rw [blockCount, htrees, total_filterMap]

/-- Steps are loaded into as many blocks whether the socket accepts them or not. -/
theorem Steps.total_placed (s : Steps) (owner : BlockKind) (socket : SocketName) :
    total (s.plugged owner socket).toList + total (s.detached owner socket) = s.blockCount := by
  have htree : total s.tree?.toList = s.blockCount := total_nest s.trees
  unfold plugged detached
  split
  · exact htree
  · simpa [total] using htree

namespace Control

/-- The number of blocks that a control is loaded into. -/
def blockCount (c : Control) : Nat := total (c.kind?.map c.tree).toList + total c.strays

/-- A logic block is one, its event and its two branches add theirs. -/
theorem blockCount_of_kind {c : Control} {kind : BlockKind} (h : c.kind? = some kind) :
    c.blockCount = 1 + total ((c.guard? kind).bind Event.tree?).toList + c.steps.blockCount +
      (c.second kind).blockCount := by
  have hbody := c.steps.total_placed kind .body
  have hsecond := (c.second kind).total_placed kind .otherwise
  have htree : (c.tree kind).size = 1 + total ((c.guard? kind).bind Event.tree?).toList +
      total (c.steps.plugged kind .body).toList +
      total ((c.second kind).plugged kind .otherwise).toList := by
    rw [tree, size_plug, size_plug, size_plug]
    rfl
  have hstrays : total c.strays = total (c.steps.detached kind .body) +
      total ((c.second kind).detached kind .otherwise) := by
    rw [strays, h]
    exact total_append _ _
  have hcount : c.blockCount = (c.tree kind).size + total c.strays := by
    simp [blockCount, h, total]
  omega

theorem blockCount_of_no_kind {c : Control} (h : c.kind? = none) :
    c.blockCount = if c.type = none ∧ c.isUnset then 0 else c.steps.blockCount := by
  rw [blockCount, strays, h]
  dsimp only
  split
  next => rfl
  next => exact (Nat.zero_add _).trans (total_nest c.steps.trees)

/-- The blocks of controls are counted control by control. -/
theorem total_pieces (cs : List Control) :
    total (trees cs) + total (cs.flatMap strays) = (cs.map blockCount).sum := by
  rw [trees, total_filterMap]
  induction cs with
  | nil => rfl
  | cons c rest ih =>
      rw [List.flatMap_cons, total_append]
      simp only [List.map_cons, List.sum_cons]
      rw [← ih, blockCount]
      omega

end Control

/-- The blocks of a program are those of its steps and those of its controls. -/
theorem Program.total_trees (p : Program) :
    total p.trees = p.steps.blockCount + (p.controls.map Control.blockCount).sum := by
  have hchains : total p.chains = p.steps.blockCount + total (Control.trees p.controls) := by
    unfold chains
    split
    · rw [total_nest, total_append]
      rfl
    · rw [total_append, total_nest, Steps.tree?, total_nest]
      rfl
  rw [Tree.total_perm p.trees_perm, total_append, hchains, ← Control.total_pieces, Nat.add_assoc]

end TaskDiagram
