import TaskDiagram.Proofs.Graph.Building
import TaskDiagram.Proofs.Graph.Loaded

/-! # Loading steps

A reference becomes a library block, a step a block that holds it, and the steps of a
program or of a branch become one chain.
-/

namespace TaskDiagram

theorem Build.bind_apply {α β : Type} (x : Build α) (f : α → Build β) (g : Graph) :
    (x >>= f) g = f (x g).1 (x g).2 := rfl

theorem Build.pure_apply {α : Type} (a : α) (g : Graph) : (pure a : Build α) g = (a, g) := rfl

theorem Build.get_apply (g : Graph) : (get : Build Graph) g = (g, g) := rfl

namespace Graph

variable {g g' : Graph}

/-! ## References and steps -/

theorem checkField_name (kind : LibraryKind) (name : String) :
    Grammar.standard.checkField (.ofEntity kind) fieldName (.text name) = .ok () := by
  cases kind <;> rfl

/-- A library block takes any whole number as its id. -/
theorem checkField_id (kind : LibraryKind) (id : Int64) :
    Grammar.standard.checkField (.ofEntity kind) fieldId (.int id) = .ok () := by
  cases kind <;> rfl

/-- A blank reference leaves the diagram as it is. -/
theorem reference_of_blank (g : Graph) (kind : LibraryKind) {r : Reference}
    (hblank : r.isBlank = true) : Build.reference kind r g = (none, g) := by
  rw [Build.reference, hblank]
  rfl

/-- A reference becomes a library block that has its name and its id. -/
theorem built_reference (hg : g.IsForest) (hstandard : g.grammar = .standard) (kind : LibraryKind)
    {r : Reference} (hblank : r.isBlank = false) :
    (Build.reference kind r g).1 = some g.nextId ∧
      g.Built (Build.reference kind r g).2 (.node (.ofEntity kind) r.fields []) [] [] := by
  have hnew := Built.insert hg (.ofEntity kind)
  have hdefaults : g.grammar.defaults (.ofEntity kind) = .empty := by
    rw [hstandard]
    cases kind <;> rfl
  rw [hdefaults] at hnew
  have hname := fun name => hnew.set (hstandard ▸ checkField_name kind name)
  unfold Build.reference
  rw [hblank]
  obtain ⟨name, id⟩ := r
  cases name with
  | none =>
      cases id with
      | none => cases hblank
      | some id => exact ⟨rfl, hnew.set (hstandard ▸ checkField_id kind id)⟩
  | some name =>
      cases id with
      | none => exact ⟨rfl, hname name⟩
      | some id => exact ⟨rfl, (hname name).set (hstandard ▸ checkField_id kind id)⟩

/-- A block that holds a reference: a step, or the event of finding an object. -/
theorem built_withReference (hg : g.IsForest) (hstandard : g.grammar = .standard)
    {kind : BlockKind} {entity : LibraryKind} (hdefaults : Grammar.standard.defaults kind = .empty)
    (haccepts : Grammar.standard.accepts kind (.ofEntity entity) (.ofEntity entity) = true)
    (r : Reference) :
    (Build.withReference kind entity r g).1 = g.nextId ∧
      g.Built (Build.withReference kind entity r g).2 (.holding kind entity r) [] [] := by
  have hnew := Built.insert hg kind
  rw [hstandard, hdefaults] at hnew
  have hgrammar : (g.insert kind).grammar = .standard := hstandard
  unfold Build.withReference Tree.holding Reference.tree?
  simp only [Build.bind_apply, Build.insert]
  by_cases hblank : r.isBlank = true
  · rw [reference_of_blank _ _ hblank, if_pos hblank, Tree.plug_none]
    exact ⟨rfl, hnew⟩
  · obtain ⟨hid, hbuilt⟩ :=
      built_reference hnew.forest hgrammar entity (Bool.eq_false_iff.mpr hblank)
    rw [hid, if_neg hblank]
    refine ⟨rfl, hnew.fill hbuilt.grown (Tree.openAt_nil _ _ _) ?_ (hstandard ▸ haccepts)⟩
    cases entity <;> decide

/-- A step becomes a block that holds its reference. -/
theorem built_step (hg : g.IsForest) (hstandard : g.grammar = .standard) (kind : StepKind)
    (r : Reference) :
    (Build.step kind r g).1 = g.nextId ∧
      g.Built (Build.step kind r g).2 (.ofStep kind r) [] [] :=
  built_withReference hg hstandard (by cases kind <;> rfl) (by cases kind <;> rfl) r

/-! ## Chains of steps -/

/-- Blocks show links, each in a range of its own; `next` tells from the blocks behind a block what
is plugged in behind it. -/
inductive Links (g : Graph) (next : List BlockId → Option BlockId) :
    Nat → Nat → List Tree → List BlockId → Prop
  | nil {lo : Nat} : Links g next lo lo [] []
  | cons {lo mid hi : Nat} {t : Tree} {ts : List Tree} {ids : List BlockId}
      (hhead : g.Segment mid t lo (next ids)) (hrest : Links g next mid hi ts ids) :
      Links g next lo hi (t :: ts) (lo :: ids)

/-- The blocks stand apart from each other. -/
def apart : List BlockId → Option BlockId := fun _ => none

/-- The blocks form a chain, with `after` behind the last. -/
def inChain (after : Option BlockId) : List BlockId → Option BlockId := fun ids => ids.head?.or after

namespace Links

variable {next : List BlockId → Option BlockId} {lo hi : Nat} {ts : List Tree} {ids : List BlockId}

theorem lo_le_hi (h : g.Links next lo hi ts ids) : lo ≤ hi := by
  induction h with
  | nil => exact Nat.le_refl _
  | cons hhead _ ih => exact Nat.le_trans (Nat.le_of_lt hhead.lt_hi) ih

/-- All blocks that show links lie in the range of these. -/
theorem range (h : g.Links next lo hi ts ids) : ∀ id ∈ ids, lo ≤ id ∧ id < hi := by
  induction h with
  | nil => nofun
  | cons hhead hrest ih =>
      intro id hid
      rcases List.mem_cons.mp hid with rfl | hid
      · exact ⟨Nat.le_refl _, Nat.lt_of_lt_of_le hhead.lt_hi hrest.lo_le_hi⟩
      · exact ⟨Nat.le_trans (Nat.le_of_lt hhead.lt_hi) (ih id hid).1, (ih id hid).2⟩

/-- The first link is shown by the first block of the range. -/
theorem head?_eq (h : g.Links next lo hi ts ids) : ids.head? = ts.head?.map fun _ => lo := by
  cases h <;> rfl

/-- Links are shown as long as the blocks of their range show what they showed. -/
theorem frame (h : g.Links next lo hi ts ids)
    (hface : ∀ id : Nat, lo ≤ id → id < hi → g'.face? id = g.face? id) :
    g'.Links next lo hi ts ids := by
  induction h with
  | nil => exact .nil
  | cons hhead hrest ih =>
      refine .cons (hhead.frame (Nat.le_refl _) fun id h1 h2 => hface id h1 ?_) (ih fun id h1 h2 => ?_)
      · exact Nat.lt_of_lt_of_le h2 hrest.lo_le_hi
      · exact hface id (Nat.le_trans (Nat.le_of_lt hhead.lt_hi) h1) h2

/-- The first block of a chain shows the tree of the chain. -/
theorem shows_nestOnto {after : Option BlockId} (h : g.Links (inChain after) lo hi ts ids)
    {hi' : Nat} {u : Option Tree} (hafter : Option.Rel (g.Shows hi hi') u after) (hhi : hi ≤ hi') :
    Option.Rel (g.Shows lo hi') (Tree.nestOnto ts u) (inChain after ids) := by
  induction h with
  | nil => exact hafter
  | cons hhead hrest ih =>
      have hmid := Nat.le_of_lt hhead.lt_hi
      exact .some (hhead.shows_plug (ih hafter hhi) (Nat.le_refl _) hmid
        (Nat.le_trans hrest.lo_le_hi hhi))

/-- Something is plugged in behind the last block of a chain. -/
theorem fill_last (h : g.Links (inChain none) lo hi ts ids) {tail : Nat}
    (htail : ids.getLast? = some tail) {content : Option BlockId}
    (hself : g'.face? tail =
      (g.face? tail).map fun f => { f with inputs := f.inputs.set content .next })
    (hface : ∀ id : Nat, lo ≤ id → id < hi → id ≠ tail → g'.face? id = g.face? id) :
    g'.Links (inChain content) lo hi ts ids := by
  induction h with
  | nil => cases htail
  | cons hhead hrest ih =>
      rename_i lo mid hi t ts ids
      cases ids with
      | nil =>
          cases hrest
          obtain rfl := Option.some.inj htail
          refine .cons (hhead.set_next hself fun id h1 h2 => ?_) .nil
          exact hface id (Nat.le_of_lt h1) h2 (Nat.ne_of_lt h1).symm
      | cons second ids =>
          have htail : (second :: ids).getLast? = some tail := by
            rwa [List.getLast?_cons_cons] at htail
          have hmem := (hrest.range tail (List.mem_of_getLast? htail)).1
          refine .cons (hhead.frame (Nat.le_refl _) fun id h1 h2 => ?_) (ih htail fun id h1 h2 => ?_)
          · exact hface id h1 (Nat.lt_of_lt_of_le h2 hrest.lo_le_hi)
              (Nat.ne_of_lt (Nat.lt_of_lt_of_le h2 hmem))
          · exact hface id (Nat.le_trans (Nat.le_of_lt hhead.lt_hi) h1) h2

/-- The last block of a chain shows the last link. -/
theorem segment_getLast (h : g.Links (inChain none) lo hi ts ids) :
    Option.Rel (fun t last => ∃ mid ≤ hi, g.Segment mid t last none) ts.getLast? ids.getLast? := by
  induction h with
  | nil => exact .none
  | cons hhead hrest ih =>
      cases hrest with
      | nil => exact .some ⟨_, Nat.le_refl _, hhead⟩
      | cons => simpa [List.getLast?_cons_cons] using ih

end Links

/-- Steps are built one after the other. -/
theorem mapM_step (hg : g.IsForest) (hstandard : g.grammar = .standard)
    (steps : List (StepKind × Reference)) :
    let built := (steps.mapM (fun (kind, r) => Build.step kind r) : Build _) g
    g.Extends built.2 Untouched [] ∧
      built.2.Links apart g.nextId built.2.nextId
        (steps.map fun (kind, r) => .ofStep kind r) built.1 ∧
      built.2.roots = g.roots ++ built.1 := by
  induction steps generalizing g with
  | nil => exact ⟨.refl hg _, .nil, (List.append_nil _).symm⟩
  | cons step steps ih =>
      obtain ⟨kind, r⟩ := step
      obtain ⟨hid, hbuilt⟩ := built_step hg hstandard kind r
      obtain ⟨hext, hlinks, hroots⟩ := ih hbuilt.forest (hbuilt.grammar.trans hstandard)
      simp only [List.mapM_cons, Build.bind_apply, Build.pure_apply, List.map_cons, hid]
      refine ⟨?_, .cons (hbuilt.segment.frame (Nat.le_refl _) fun id _ h2 => ?_) hlinks, ?_⟩
      · exact hbuilt.toExtends.trans hext fun _ _ hor => hor.elim id id
      · exact hext.face?_old h2
      · obtain ⟨beside, hbeside, hnone⟩ := hbuilt.roots
        cases hnone
        rw [hroots, hbeside, List.append_assoc]
        rfl

/-- Whether the grammar lets each link follow the one before it. -/
def Chainable (grammar : Grammar) (ts : List Tree) : Prop :=
  ts.IsChain fun t u => grammar.accepts t.kind .next u.kind = true

/-- A root can be plugged in behind a link. -/
theorem Segment.pluggable (hg : g.IsForest) {lo hi hi' id child : Nat} {t u : Tree}
    (h : g.Segment hi t id none) (hu : g.Shows lo hi' u child) (hroot : child ∈ g.roots)
    (hlt : id < lo) (haccepts : g.grammar.accepts t.kind .next u.kind = true) :
    g.Pluggable id .next child := by
  obtain ⟨links, hface, -⟩ := h.shown
  have hfree : (links.set none .next).get? .next = none := by rw [Sockets.get?_set, if_pos rfl]
  exact pluggable_of_shows hg hface hfree hu hroot hlt haccepts

/-- Blocks that stand apart become a chain, when the grammar lets each follow the one before it. -/
theorem linkChain_links {lo hi : Nat} {ts : List Tree} {ids : List BlockId} (hg : g.IsForest)
    (h : g.Links apart lo hi ts ids) (hhi : hi ≤ g.nextId) (hchain : Chainable g.grammar ts)
    (hroots : ∀ id ∈ ids.tail, id ∈ g.roots) :
    let linked := (Build.linkChain ids g).2
    g.Extends linked (fun id => lo ≤ id ∧ id < hi) [] ∧ linked.nextId = g.nextId ∧
      linked.Links (inChain none) lo hi ts ids ∧
      linked.roots = g.roots.filter (!ids.tail.contains ·) := by
  induction ids generalizing g lo ts with
  | nil =>
      cases h
      refine ⟨.refl hg _, rfl, .nil, ?_⟩
      simp [Build.linkChain, Build.pure_apply]
  | cons first ids ih =>
      cases h with
      | cons hhead hrest =>
      rename_i mid t ts
      have hlinks := hrest
      cases hrest with
      | nil =>
          refine ⟨.refl hg _, rfl, .cons hhead .nil, ?_⟩
          simp [Build.linkChain, Build.pure_apply]
      | cons hsecond hbehind =>
          rename_i hi' u ts ids
          obtain ⟨haccepts, hchain⟩ := List.isChain_cons_cons.mp hchain
          have hplug := hhead.pluggable hg (hsecond.shows (Nat.le_refl _))
            (hroots mid List.mem_cons_self) hhead.lt_hi haccepts
          have hfirst := Extends.plug hg hplug
          have hnext : (g.plug first .next mid).nextId = g.nextId := nextId_relink _ _ _ _ _ _ _
          have hloose : ∀ id ∈ ids, id ∈ (g.plug first .next mid).roots := by
            intro id hid
            have hlt := Nat.lt_of_lt_of_le hsecond.lt_hi (hbehind.range id hid).1
            have hne : (id != mid) = true := by simpa using (Nat.ne_of_lt hlt).symm
            exact List.mem_filter.mpr ⟨hroots id (List.mem_cons_of_mem _ hid), hne⟩
          have hahead : ∀ {id : Nat}, mid ≤ id → first < id := Nat.lt_of_lt_of_le hhead.lt_hi
          have hlinked := hhead.set_next (face?_plug g first mid .next) fun id h1 h2 =>
            hfirst.face? id (Nat.lt_of_lt_of_le h2 (hlinks.lo_le_hi.trans hhi)) (Nat.ne_of_lt h1).symm
          -- The first link is done; the others are made behind the second block.
          obtain ⟨hext, hsize, hrest, hleft⟩ := ih hfirst.forest
            (hlinks.frame fun id h1 h2 =>
              hfirst.face? id (Nat.lt_of_lt_of_le h2 hhi) (Nat.ne_of_lt (hahead h1)).symm)
            (hnext ▸ hhi) (hfirst.grammar ▸ hchain) hloose
          rw [Build.linkChain]
          simp only [Build.bind_apply, link_eq_plug hplug]
          refine ⟨hfirst.trans hext fun id _ hor => ?_, hsize.trans hnext, .cons ?_ hrest, ?_⟩
          · rcases hor with rfl | ⟨h1, h2⟩
            · exact ⟨Nat.le_refl _, hahead hlinks.lo_le_hi⟩
            · exact ⟨Nat.le_of_lt (hahead h1), h2⟩
          · refine hlinked.frame (Nat.le_refl _) fun id _ h2 => ?_
            have hlt := Nat.lt_of_lt_of_le h2 (hlinks.lo_le_hi.trans hhi)
            exact hext.face? id (hnext ▸ hlt) fun hin => Nat.not_lt_of_le hin.1 h2
          · rw [hleft]
            change (g.roots.filter _).filter _ = _
            rw [List.filter_filter]
            congr 1
            funext id
            by_cases heq : id = mid <;> simp [heq]

/-- Of a chain only the head stays a root. -/
theorem filter_tail_of_nodup {before ids : List BlockId} (h : (before ++ ids).Nodup) :
    (before ++ ids).filter (!ids.tail.contains ·) = before ++ ids.head?.toList := by
  cases ids with
  | nil => simp
  | cons first ids =>
      obtain ⟨-, hids, hapart⟩ := List.nodup_append.mp h
      have hbefore : ∀ id ∈ before, id ∉ ids := fun id hid hmem =>
        hapart id hid id (List.mem_cons_of_mem _ hmem) rfl
      have hkept : before.filter (!ids.contains ·) = before :=
        List.filter_eq_self.mpr fun id hid => by simpa using hbefore id hid
      have hgone : ids.filter (!ids.contains ·) = [] :=
        List.filter_eq_nil_iff.mpr fun id hid => by simpa using hid
      have hfirst : (!ids.contains first) = true := by simpa using (List.nodup_cons.mp hids).1
      rw [List.tail_cons, List.filter_append, hkept, List.filter_cons, hgone, if_pos hfirst]
      rfl

theorem chainable_trees (s : Steps) : Chainable Grammar.standard s.trees := by
  obtain ⟨pick, processing, place⟩ := s
  cases pick <;> cases processing <;> cases place <;>
    simp [Chainable, Steps.trees, Steps.toList, StepKind.all, Steps.get] <;> decide

/-- The steps of a program or of a branch become one chain. -/
theorem steps_links (hg : g.IsForest) (hstandard : g.grammar = .standard) (s : Steps) :
    let built := Build.steps s g
    g.Extends built.2 Untouched [] ∧
      built.2.Links (inChain none) g.nextId built.2.nextId s.trees built.1 ∧
      built.2.roots = g.roots ++ built.1.head?.toList := by
  obtain ⟨hext, hlinks, hroots⟩ := mapM_step hg hstandard s.toList
  have hmem : ∀ id ∈ (s.toList.mapM (fun (kind, r) => Build.step kind r) g).1.tail,
      id ∈ (s.toList.mapM (fun (kind, r) => Build.step kind r) g).2.roots := by
    intro id hid
    rw [hroots]
    exact List.mem_append_right _ (List.mem_of_mem_tail hid)
  obtain ⟨hext', hsize, hlinks', hroots'⟩ := linkChain_links hext.forest hlinks (Nat.le_refl _)
    (hext.grammar.trans hstandard ▸ chainable_trees s) hmem
  unfold Build.steps
  simp only [Build.bind_apply, Build.pure_apply]
  refine ⟨hext.trans hext' fun id hid hor => ?_, hsize ▸ hlinks', ?_⟩
  · exact hor.elim False.elim fun hin => Nat.not_lt_of_le hin.1 hid
  · have hnodup := hext.forest.roots_nodup
    rw [hroots] at hnodup
    rw [hroots', hroots]
    exact filter_tail_of_nodup hnodup

/-- The steps become one new root with nothing beside it and nothing reported. -/
theorem grown_steps (hg : g.IsForest) (hstandard : g.grammar = .standard) {s : Steps} {t : Tree}
    (ht : s.tree? = some t) :
    (Build.steps s g).1.head? = some g.nextId ∧ g.Grown (Build.steps s g).2 t [] [] := by
  obtain ⟨hext, hlinks, hroots⟩ := steps_links hg hstandard s
  have hnone : Option.Rel ((Build.steps s g).2.Shows (Build.steps s g).2.nextId
    (Build.steps s g).2.nextId) none none := .none
  have hshows := hlinks.shows_nestOnto hnone (Nat.le_refl _)
  rw [show Tree.nestOnto s.trees none = some t from ht] at hshows
  have hhead : (Build.steps s g).1.head? = some g.nextId := by
    rw [hlinks.head?_eq]
    unfold Steps.tree? Tree.nest at ht
    cases htrees : s.trees with
    | nil => simp [htrees, Tree.nestOnto] at ht
    | cons => rfl
  rw [inChain, hhead] at hshows
  rw [hhead] at hroots
  cases hshows with
  | some hshows => exact ⟨hhead, hext, hshows, [], hroots, .nil⟩

theorem steps_of_tree?_none (g : Graph) {s : Steps} (hs : s.tree? = none) :
    Build.steps s g = ([], g) := by
  have hempty : s.toList = [] := by
    cases hlist : s.toList with
    | nil => rfl
    | cons step rest => simp [Steps.tree?, Steps.trees, Tree.nest, Tree.nestOnto, hlist] at hs
  unfold Build.steps
  rw [hempty]
  rfl

end Graph

end TaskDiagram
