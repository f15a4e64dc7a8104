import TaskDiagram.Proofs.Graph.Loading.Program

/-! # Normal forms of programs

Opening a program and saving it again makes a normal form of it, which is computed here
without a diagram. Controls of known type are kept with what their blocks can hold, the
steps of the others join those at the top level.
-/

namespace TaskDiagram

/-- The first step of each kind. -/
def Steps.firsts (pieces : List Steps) : Steps :=
  ⟨pieces.findSome? (·.pick), pieces.findSome? (·.processing), pieces.findSome? (·.place)⟩

/-- The steps, unless the socket refuses the first of them. -/
def Steps.kept (s : Steps) (owner : BlockKind) (socket : SocketName) : Steps :=
  if s.fit owner socket then s else .empty

/-- The event without what its block does not hold. -/
def Event.normal (e : Event) : Event :=
  match e.type with
  | some .sensor => ⟨some .sensor, none⟩
  | some .human => ⟨some .human, none⟩
  | some .findObject =>
      ⟨some .findObject, if (e.findObject.getD .blank).isBlank then none else e.findObject⟩
  | _ => .blank

namespace Control

/-- The control that is read from its logic block. -/
def normalAs (c : Control) (kind : BlockKind) (type : ControlType) : Control where
  type := some type
  times := if kind == .repeated then c.times.map clampCount else none
  event :=
    if kind == .when || kind == .whenOtherwise then
      some ((c.event.map Event.normal).getD .blank)
    else none
  otherwise :=
    if kind == .whenOtherwise then some ((c.otherwise.getD .empty).kept kind .otherwise) else none
  steps := c.steps.kept kind .body

/-- The control after opening and saving, if there is a logic block for it. -/
def normal? (c : Control) : Option Control :=
  c.kind?.bind fun kind => (Graph.controlType? kind).map (c.normalAs kind)

/-- Steps of a control of unknown type, which stand on their own. -/
def loose (c : Control) : List Steps :=
  match c.kind? with
  | some _ => []
  | none => if c.type = none ∧ c.isUnset then [] else [c.steps]

theorem loose_of_kind {c : Control} {kind : BlockKind} (hkind : c.kind? = some kind) :
    c.loose = [] := by
  rw [loose, hkind]

end Control

/-- The program after opening and saving. Chains count when they begin with a pick or a control. -/
def Program.normal (p : Program) : Program where
  steps := .firsts ((p.steps :: p.controls.flatMap Control.loose).filter (·.pick.isSome))
  controls :=
    if p.steps.leadTo p.controls && p.steps.pick.isNone then []
    else p.controls.filterMap Control.normal?

namespace Tree

/-- Putting something into a free socket fills this socket and no other. -/
theorem child?_plug (t : Tree) {socket : SocketName} (hfree : t.child? socket = none)
    (content : Option Tree) (other : SocketName) :
    (t.plug socket content).child? other = if other = socket then content else t.child? other := by
  have hnone : t.inputs.find? (·.1 == socket) = none := Option.map_eq_none_iff.mp hfree
  unfold child?
  rw [inputs_plug, List.find?_append]
  by_cases hs : other = socket
  · subst hs
    rw [hnone]
    cases content <;> simp [inSocket]
  · have hne : (socket == other) = false := by simpa using Ne.symm hs
    cases content <;> simp [inSocket, hs, hne]

theorem OpenAt.child? {t : Tree} {socket : SocketName} (h : t.OpenAt socket) :
    t.child? socket = none := by
  have hnone : t.inputs.find? (·.1 == socket) = none := by
    refine List.find?_eq_none.mpr fun entry hentry heq => ?_
    rw [beq_iff_eq] at heq
    exact Nat.lt_irrefl _ (heq ▸ h entry hentry)
  rw [Tree.child?, hnone, Option.map_none]

/-- What is put behind a link is no part of the link. -/
theorem OpenAt.link_plug {t : Tree} (h : t.OpenAt .next) (content : Option Tree) :
    (t.plug .next content).link = t := by
  have hkept : t.inputs.filter (·.1 != .next) = t.inputs := by
    apply List.filter_eq_self.mpr
    intro entry hentry
    have hlt := h entry hentry
    rw [bne_iff_ne]
    exact fun heq => Nat.lt_irrefl _ (heq ▸ hlt)
  have hgone : (inSocket .next content).filter (·.1 != .next) = [] := by cases content <;> rfl
  rw [link, inputs_plug, List.filter_append, hkept, hgone, List.append_nil]
  cases t
  rfl

theorem branch_eq (t : Tree) (socket : SocketName) :
    t.branch socket = ((t.child? socket).map chain).getD [] := by
  unfold branch
  cases t.child? socket <;> rfl

/-- The chain of the tree of some links consists of these links. -/
theorem chain_nest {links : List Tree} (hopen : ∀ t ∈ links, t.OpenAt .next) :
    ((nest links).map chain).getD [] = links := by
  induction links with
  | nil => rfl
  | cons link rest ih =>
      have hlink := hopen link List.mem_cons_self
      have hrest := ih fun t ht => hopen t (List.mem_cons_of_mem _ ht)
      rw [nest_cons, Option.map_some, Option.getD_some, chain_eq, hlink.link_plug, branch_eq,
        child?_plug _ hlink.child?, if_pos rfl, hrest]

end Tree

/-! ## Reading what was loaded -/

section Reading

/-- A reference that was loaded is read back, blank or not. -/
theorem readReference_holding (kind : BlockKind) (entity : LibraryKind) (r : Reference) :
    (Tree.holding kind entity r).readReference (.ofEntity entity) = r := by
  unfold Tree.readReference Tree.holding Reference.tree?
  rw [Tree.child?_plug _ rfl, if_pos rfl]
  obtain ⟨name, id⟩ := r
  cases name <;> cases id <;> rfl

theorem readStep_append (ts us : List Tree) (step : StepKind) :
    Tree.readStep (ts ++ us) step = (Tree.readStep ts step).or (Tree.readStep us step) := by
  unfold Tree.readStep
  rw [List.find?_append, Option.map_or]

/-- Steps that were loaded are read back. -/
theorem readStep_trees (s : Steps) (step : StepKind) : Tree.readStep s.trees step = s.get step := by
  have hread := fun kind r => readReference_holding (.ofStep kind) kind.entity r
  obtain ⟨pick, processing, place⟩ := s
  unfold Tree.readStep
  cases pick <;> cases processing <;> cases place <;> cases step <;>
    simp [Steps.trees, Steps.toList, StepKind.all, Steps.get, BlockKind.ofStep] <;>
    exact hread _ _

/-- The steps that were loaded are the steps that are read. -/
theorem readSteps_trees (s : Steps) : Tree.readSteps s.trees = s := by
  unfold Tree.readSteps
  simp only [readStep_trees]
  rfl

/-- Of several branches the first step of each kind is read. -/
theorem readSteps_flatMap (pieces : List Steps) :
    Tree.readSteps (pieces.flatMap Steps.trees) = .firsts pieces := by
  have hread : ∀ step, Tree.readStep (pieces.flatMap Steps.trees) step =
      pieces.findSome? (·.get step) := by
    intro step
    induction pieces with
    | nil => rfl
    | cons s rest ih =>
        rw [List.flatMap_cons, readStep_append, ih, readStep_trees, List.findSome?_cons]
        cases s.get step <;> rfl
  unfold Tree.readSteps Steps.firsts
  simp only [hread]
  rfl

theorem openAt_ofStep (kind : StepKind) (r : Reference) : (Tree.ofStep kind r).OpenAt .next :=
  (Tree.openAt_nil _ _ _).plug (by cases kind <;> decide) _

theorem openAt_trees (s : Steps) : ∀ t ∈ s.trees, t.OpenAt .next := by
  intro t ht
  obtain ⟨⟨kind, r⟩, -, rfl⟩ := List.mem_map.mp ht
  exact openAt_ofStep kind r

/-- From a branch are read the steps its socket accepted. -/
theorem readSteps_branch {t : Tree} {socket : SocketName} {s : Steps} {owner : BlockKind}
    (h : t.child? socket = s.plugged owner socket) :
    Tree.readSteps (t.branch socket) = s.kept owner socket := by
  rw [Tree.branch_eq, h]
  unfold Steps.plugged Steps.kept
  split
  · rw [Steps.tree?, Tree.chain_nest (openAt_trees s), readSteps_trees]
  · rfl

/-- Of an event is read what its block holds. -/
theorem readEvent_eq_normal {t : Tree} {e : Event} (h : t.child? .when = e.tree?) :
    t.readEvent = e.normal := by
  obtain ⟨type, findObject⟩ := e
  unfold Tree.readEvent Event.normal
  rw [h]
  cases type with
  | none => rfl
  | some type =>
      cases type with
      | sensor => rfl
      | human => rfl
      | other => rfl
      | findObject =>
          have hread := readReference_holding .findObject .object (findObject.getD .blank)
          have hchild : (Tree.holding .findObject .object (findObject.getD .blank)).child? .object =
              (findObject.getD .blank).tree? .object :=
            (Tree.child?_plug _ rfl _ _).trans (if_pos rfl)
          simp only [Event.tree?, Tree.kind_holding, hchild, Reference.tree?]
          split
          · rfl
          next hblank =>
            cases findObject with
            | none => exact absurd rfl hblank
            | some r => exact congrArg (fun r => (⟨some .findObject, some r⟩ : Event)) hread

section Control

variable (c : Control)

/-- The sockets of a logic block hold the two branches and the event, as far as they are accepted.
-/
theorem child?_tree (kind : BlockKind) (socket : SocketName) :
    (c.tree kind).child? socket =
      if socket = .otherwise then (c.second kind).plugged kind .otherwise
      else if socket = .body then c.steps.plugged kind .body
      else if socket = .when then (c.guard? kind).bind Event.tree?
      else none := by
  have hwhen : ∀ socket, ((Tree.node kind (c.fields kind) []).plug .when
      ((c.guard? kind).bind Event.tree?)).child? socket =
        if socket = .when then (c.guard? kind).bind Event.tree? else none :=
    fun socket => Tree.child?_plug _ rfl _ socket
  have hbody := Tree.child?_plug _ (hwhen .body) (c.steps.plugged kind .body)
  have hfree := hbody .otherwise
  rw [hwhen] at hfree
  rw [Control.tree, Tree.child?_plug _ hfree, hbody, hwhen]

theorem openAt_tree (kind : BlockKind) : (c.tree kind).OpenAt .next :=
  (((Tree.openAt_nil _ _ _).plug (by decide) _).plug (by decide) _).plug (by decide) _

/-- A control that was loaded is read back in its normal form. -/
theorem readControl_tree (kind : BlockKind) :
    (c.tree kind).readControl = (Graph.controlType? kind).map (c.normalAs kind) := by
  have hkind : (c.tree kind).kind = kind := rfl
  have htimes : (c.tree kind).intField? fieldTimes =
      if kind = .repeated then c.times.map clampCount else none := by
    change ((c.fields kind).get? fieldTimes).bind FieldValue.asInt = _
    unfold Control.fields
    cases kind with
    | repeated => cases c.times <;> rfl
    | _ => rfl
  have hevent : kind = .when ∨ kind = .whenOtherwise →
      (c.tree kind).readEvent = (c.event.map Event.normal).getD .blank := by
    intro hguarded
    have hchild := child?_tree c kind .when
    rw [Control.guard?, if_pos hguarded] at hchild
    cases hc : c.event with
    | none =>
        rw [hc] at hchild
        unfold Tree.readEvent
        rw [hchild]
        rfl
    | some e =>
        rw [hc] at hchild
        exact readEvent_eq_normal hchild
  have hbody : Tree.readSteps ((c.tree kind).branch .body) = c.steps.kept kind .body :=
    readSteps_branch (child?_tree c kind .body)
  have hotherwise : kind = .whenOtherwise → Tree.readSteps ((c.tree kind).branch .otherwise) =
      (c.otherwise.getD .empty).kept kind .otherwise := by
    intro hkind
    have := readSteps_branch (child?_tree c kind .otherwise)
    rwa [Control.second, if_pos hkind] at this
  unfold Tree.readControl
  rw [hkind, hbody, htimes]
  cases kind with
  | loop => rfl
  | repeated => rfl
  | when => simp [Graph.controlType?, Control.normalAs, hevent]
  | whenOtherwise => simp [Graph.controlType?, Control.normalAs, hevent, hotherwise]
  | _ => rfl

end Control

end Reading

/-! ## What counts at the top level -/

section Counting

/-- Of trees without controls those count that may stand at the top level. -/
theorem counted_of_no_controls {grammar : Grammar} {ts : List Tree}
    (hts : ∀ t ∈ ts, t.controls = []) (taken : Bool) :
    Tree.counted grammar taken ts = ts.filter (grammar.isRoot ·.kind) := by
  induction ts with
  | nil => rfl
  | cons t rest ih =>
      have ih := ih fun t ht => hts t (List.mem_cons_of_mem _ ht)
      rw [Tree.counted, hts t List.mem_cons_self, List.filter_cons]
      cases grammar.isRoot t.kind <;> simp [ih]

/-- The only tree with controls may stand anywhere among the others. -/
theorem counted_around {grammar : Grammar} {before after : List Tree} {chain : Option Tree}
    (hbefore : ∀ t ∈ before, t.controls = []) (hafter : ∀ t ∈ after, t.controls = []) :
    Tree.counted grammar false (before ++ (chain.toList ++ after)) =
      (before ++ (chain.toList ++ after)).filter (grammar.isRoot ·.kind) := by
  induction before with
  | nil =>
      cases chain with
      | none => exact counted_of_no_controls hafter false
      | some t =>
          rw [List.nil_append, Option.toList_some, List.singleton_append, Tree.counted,
            List.filter_cons]
          cases grammar.isRoot t.kind <;> simp [counted_of_no_controls hafter]
  | cons t rest ih =>
      have ih := ih fun t ht => hbefore t (List.mem_cons_of_mem _ ht)
      rw [List.cons_append, Tree.counted, hbefore t List.mem_cons_self, List.filter_cons]
      cases grammar.isRoot t.kind <;> simp [ih]

theorem isLogic_ofStep (kind : StepKind) : (BlockKind.ofStep kind).isLogic = false := by
  cases kind <;> rfl

theorem isLogic_trees (s : Steps) : ∀ t ∈ s.trees, t.kind.isLogic = false := by
  intro t ht
  obtain ⟨⟨kind, r⟩, -, rfl⟩ := List.mem_map.mp ht
  exact isLogic_ofStep kind

/-- Every logic block stands for a control of known type. -/
theorem mem_trees {cs : List Control} {t : Tree} (ht : t ∈ Control.trees cs) :
    ∃ (c : Control) (kind : BlockKind), c.kind? = some kind ∧ t = c.tree kind := by
  obtain ⟨c, -, hc⟩ := List.mem_filterMap.mp ht
  obtain ⟨kind, hkind, rfl⟩ := Option.map_eq_some_iff.mp hc
  exact ⟨c, kind, hkind, rfl⟩

theorem isLogic_controlTrees (cs : List Control) : ∀ t ∈ Control.trees cs, t.kind.isLogic = true := by
  intro t ht
  obtain ⟨c, kind, hkind, rfl⟩ := mem_trees ht
  have hall : ∀ kind ∈ Grammar.logicKinds, kind.isLogic = true := by decide
  exact hall kind (Graph.mem_logicKinds hkind)

theorem openAt_controlTrees (cs : List Control) : ∀ t ∈ Control.trees cs, t.OpenAt .next := by
  intro t ht
  obtain ⟨c, kind, -, rfl⟩ := mem_trees ht
  exact openAt_tree c kind

theorem openAt_links (s : Steps) (cs : List Control) :
    ∀ t ∈ s.trees ++ Control.trees cs, t.OpenAt .next := by
  intro t ht
  exact (List.mem_append.mp ht).elim (openAt_trees s t) (openAt_controlTrees cs t)

/-- A chain of steps and then controls is split where the controls begin. -/
theorem split_nest {s : Steps} {cs : List Control} {t : Tree}
    (ht : Tree.nest (s.trees ++ Control.trees cs) = some t) :
    t.leading = s.trees ∧ t.controls = Control.trees cs := by
  have hchain := Tree.chain_nest (openAt_links s cs)
  rw [ht] at hchain
  have hchain : t.chain = s.trees ++ Control.trees cs := hchain
  have hsteps : ∀ t ∈ s.trees, (!t.kind.isLogic) = true := fun t ht => by rw [isLogic_trees s t ht]; rfl
  unfold Tree.leading Tree.controls
  rw [hchain, List.takeWhile_append_of_pos hsteps, List.dropWhile_append_of_pos hsteps]
  have hlogic := isLogic_controlTrees cs
  cases htrees : Control.trees cs with
  | nil => exact ⟨List.append_nil _, rfl⟩
  | cons t rest =>
      have ht : t.kind.isLogic = true := hlogic t (htrees ▸ List.mem_cons_self)
      simp [ht]

/-- A chain of steps alone has no controls. -/
theorem split_tree? {s : Steps} {t : Tree} (ht : s.tree? = some t) :
    t.leading = s.trees ∧ t.controls = [] := by
  have hnest : Tree.nest (s.trees ++ Control.trees []) = some t := by
    rwa [show Control.trees [] = [] from rfl, List.append_nil]
  exact split_nest hnest

/-- Steps may stand at the top level when a pick is their first. -/
theorem isRoot_first? {s : Steps} {kind : BlockKind} (hfirst : s.first? = some kind) :
    Grammar.standard.isRoot kind = s.pick.isSome := by
  obtain ⟨pick, processing, place⟩ := s
  cases pick <;> cases processing <;> cases place <;> cases hfirst <;> rfl

theorem isRoot_tree? {s : Steps} {t : Tree} (ht : s.tree? = some t) :
    Grammar.standard.isRoot t.kind = s.pick.isSome :=
  isRoot_first? (by rw [s.first?_eq, ht, Option.map_some])

section Pieces

variable (pieces : List Steps)

theorem controls_pieces : ∀ t ∈ pieces.filterMap Steps.tree?, t.controls = [] := by
  intro t ht
  obtain ⟨s, -, hs⟩ := List.mem_filterMap.mp ht
  exact (split_tree? hs).2

theorem flatMap_controls_pieces (p : Tree → Bool) :
    ((pieces.filterMap Steps.tree?).filter p).flatMap Tree.controls = [] :=
  List.flatMap_eq_nil_iff.mpr fun t ht => controls_pieces pieces t (List.mem_filter.mp ht).1

/-- Of several branches those count that begin with a pick. -/
theorem flatMap_leading_pieces :
    ((pieces.filterMap Steps.tree?).filter (Grammar.standard.isRoot ·.kind)).flatMap Tree.leading =
      (pieces.filter (·.pick.isSome)).flatMap Steps.trees := by
  induction pieces with
  | nil => rfl
  | cons s rest ih =>
      cases htree : s.tree? with
      | none =>
          have hpick : s.pick.isSome = false := by
            obtain ⟨pick, processing, place⟩ := s
            cases pick with
            | none => rfl
            | some => cases htree
          rw [List.filterMap_cons_none htree, ih, List.filter_cons_of_neg (by rw [hpick]; decide)]
      | some t =>
          rw [List.filterMap_cons_some htree, List.filter_cons, List.filter_cons, isRoot_tree? htree]
          cases s.pick.isSome with
          | false => exact ih
          | true => exact congrArg₂ (· ++ ·) (split_tree? htree).1 ih

end Pieces

/-- Of the controls that were loaded those of known type are read, each in its normal form. -/
theorem filterMap_readControl (cs : List Control) :
    (Control.trees cs).filterMap Tree.readControl = cs.filterMap Control.normal? := by
  unfold Control.trees
  rw [List.filterMap_filterMap]
  apply List.filterMap_congr
  intro c _
  unfold Control.normal?
  cases c.kind? with
  | none => rfl
  | some kind => exact readControl_tree c kind

/-- A chain may stand at the top level when a pick or a control is its first. -/
theorem isRoot_nest {s : Steps} {cs : List Control} {t : Tree}
    (ht : Tree.nest (s.trees ++ Control.trees cs) = some t) :
    Grammar.standard.isRoot t.kind = (s.pick.isSome || s.toList.isEmpty) := by
  cases htrees : s.trees with
  | nil =>
      -- Without steps a logic block comes first, and each of their kinds may be a root.
      have hempty : s.toList = [] := List.map_eq_nil_iff.mp htrees
      have hlogic := isLogic_controlTrees cs
      rw [htrees, List.nil_append] at ht
      rw [hempty, List.isEmpty_nil, Bool.or_true]
      cases hcs : Control.trees cs with
      | nil =>
          rw [hcs] at ht
          cases ht
      | cons u rest =>
          rw [hcs, Tree.nest_cons] at ht
          obtain rfl := Option.some.inj ht
          have hall : ∀ kind : BlockKind, kind.isLogic = true → Grammar.standard.isRoot kind = true := by
            intro kind
            cases kind <;> decide
          exact hall u.kind (hlogic u (hcs ▸ List.mem_cons_self))
  | cons u rest =>
      have hfilled : s.toList.isEmpty = false := by
        cases hlist : s.toList with
        | nil => simp [Steps.trees, hlist] at htrees
        | cons => rfl
      have hroot : Grammar.standard.isRoot u.kind = s.pick.isSome := by
        have htree : s.tree? = some (u.plug .next (Tree.nest rest)) := by
          rw [Steps.tree?, htrees, Tree.nest_cons]
        have hroot := isRoot_tree? htree
        rwa [Tree.kind_plug] at hroot
      rw [htrees, List.cons_append, Tree.nest_cons] at ht
      obtain rfl := Option.some.inj ht
      rw [hfilled, Bool.or_false, ← hroot]
      rfl

theorem toList_eq_nil_iff {s : Steps} : s.toList = [] ↔ s = .empty := by
  constructor
  · intro h
    obtain ⟨pick, processing, place⟩ := s
    cases pick <;> cases processing <;> cases place <;> first | rfl | cases h
  · rintro rfl
    rfl

/-- What one chain of steps and controls counts for at the top level. -/
theorem counted_nest (s : Steps) (cs : List Control) :
    ((Tree.nest (s.trees ++ Control.trees cs)).toList.filter
        (Grammar.standard.isRoot ·.kind)).flatMap Tree.leading =
          ([s].filter (·.pick.isSome)).flatMap Steps.trees ∧
      ((Tree.nest (s.trees ++ Control.trees cs)).toList.filter
        (Grammar.standard.isRoot ·.kind)).flatMap Tree.controls =
          if s.pick.isSome || s.toList.isEmpty then Control.trees cs else [] := by
  cases hnest : Tree.nest (s.trees ++ Control.trees cs) with
  | none =>
      obtain ⟨hs, hcs⟩ := List.append_eq_nil_iff.mp (Tree.nest_eq_none_iff.mp hnest)
      obtain rfl := toList_eq_nil_iff.mp (List.map_eq_nil_iff.mp hs)
      rw [hcs]
      exact ⟨rfl, rfl⟩
  | some t =>
      obtain ⟨hleading, hcontrols⟩ := split_nest hnest
      rw [Option.toList_some, List.filter_singleton, List.filter_singleton, isRoot_nest hnest]
      cases hpick : s.pick.isSome with
      | true => simp [hleading, hcontrols]
      | false =>
          cases hempty : s.toList.isEmpty with
          | true =>
              obtain rfl := toList_eq_nil_iff.mp (List.isEmpty_iff.mp hempty)
              rw [Bool.or_true, if_pos rfl, cond_true, cond_false, List.flatMap_singleton,
                List.flatMap_singleton]
              exact ⟨hleading, hcontrols⟩
          | false => simp

/-- The program of one chain of steps and controls among branches that stand on their own. -/
theorem toProgram_around (before after : List Steps) (s : Steps) (cs : List Control) :
    Tree.toProgram .standard (before.filterMap Steps.tree? ++
        ((Tree.nest (s.trees ++ Control.trees cs)).toList ++ after.filterMap Steps.tree?)) =
      ⟨.firsts ((before ++ s :: after).filter (·.pick.isSome)),
        if s.pick.isSome || s.toList.isEmpty then cs.filterMap Control.normal? else []⟩ := by
  obtain ⟨hleading, hcontrols⟩ := counted_nest s cs
  have hsplit : before ++ s :: after = before ++ ([s] ++ after) := rfl
  rw [hsplit]
  unfold Tree.toProgram
  rw [counted_around (controls_pieces before) (controls_pieces after)]
  simp only [List.filter_append, List.flatMap_append, flatMap_controls_pieces,
    flatMap_leading_pieces, List.nil_append, List.append_nil, hleading, hcontrols]
  rw [← List.flatMap_append, ← List.flatMap_append, readSteps_flatMap]
  congr 1
  split
  · exact filterMap_readControl cs
  · rfl

end Counting

/-! ## Branches that stand on their own -/

/-- A socket that accepts a pick refuses no steps that begin with one. -/
theorem detached_pieces {s : Steps} {kind : BlockKind} {socket : SocketName}
    (hpick : s = .empty ∨ Grammar.standard.accepts kind socket .pick = true) :
    ∃ pieces : List Steps, s.detached kind socket = pieces.filterMap Steps.tree? ∧
      pieces.filter (·.pick.isSome) = [] := by
  unfold Steps.detached
  split
  · exact ⟨[], rfl, rfl⟩
  next hfit =>
    refine ⟨[s], by cases h : s.tree? <;> simp [h], ?_⟩
    rcases hpick with rfl | haccepts
    · rfl
    · obtain ⟨pick, processing, place⟩ := s
      cases pick with
      | none => rfl
      | some => exact absurd haccepts hfit

/-- What one control leaves over are chains of steps, and those that begin with a pick are its loose
ones. -/
theorem strays_pieces (c : Control) : ∃ pieces : List Steps,
    c.strays = pieces.filterMap Steps.tree? ∧
      pieces.filter (·.pick.isSome) = c.loose.filter (·.pick.isSome) := by
  unfold Control.strays Control.loose
  cases hkind : c.kind? with
  | none =>
      dsimp only
      split
      · exact ⟨[], rfl, rfl⟩
      · exact ⟨[c.steps], by cases h : c.steps.tree? <;> simp [h], rfl⟩
  | some kind =>
      have hlogic := Graph.mem_logicKinds hkind
      have hbodies : ∀ kind ∈ Grammar.logicKinds, Grammar.standard.accepts kind .body .pick = true := by
        decide
      have hsecond : c.second kind = .empty ∨ Grammar.standard.accepts kind .otherwise .pick = true := by
        by_cases hk : kind = .whenOtherwise
        · exact .inr (hk ▸ by decide)
        · exact .inl (if_neg hk)
      obtain ⟨first, hfirst, hnone⟩ := detached_pieces (s := c.steps) (.inr (hbodies kind hlogic))
      obtain ⟨second, hsecond, hnone'⟩ := detached_pieces hsecond
      refine ⟨first ++ second, ?_, by rw [List.filter_append, hnone, hnone']; rfl⟩
      rw [List.filterMap_append, ← hfirst, ← hsecond]
      rfl

/-- What all controls leave over are chains of steps, and those that begin with a pick are the loose
ones. -/
theorem flatMap_strays_pieces (cs : List Control) : ∃ pieces : List Steps,
    cs.flatMap Control.strays = pieces.filterMap Steps.tree? ∧
      pieces.filter (·.pick.isSome) = (cs.flatMap Control.loose).filter (·.pick.isSome) := by
  induction cs with
  | nil => exact ⟨[], rfl, rfl⟩
  | cons c rest ih =>
      obtain ⟨first, hfirst, hloose⟩ := strays_pieces c
      obtain ⟨pieces, hpieces, hrest⟩ := ih
      refine ⟨first ++ pieces, ?_, ?_⟩
      · rw [List.flatMap_cons, hfirst, hpieces, List.filterMap_append]
      · rw [List.flatMap_cons, List.filter_append, List.filter_append, hloose, hrest]

/-- Where the chain of controls stands on its own, it stands among what its controls leave over. -/
theorem roots_pieces (cs : List Control) : ∃ before after : List Steps,
    Control.roots cs = before.filterMap Steps.tree? ++
      ((Tree.nest (Control.trees cs)).toList ++ after.filterMap Steps.tree?) ∧
    (before ++ after).filter (·.pick.isSome) =
      (cs.flatMap Control.loose).filter (·.pick.isSome) := by
  induction cs with
  | nil => exact ⟨[], [], rfl, rfl⟩
  | cons c rest ih =>
      obtain ⟨first, hfirst, hloose⟩ := strays_pieces c
      cases hkind : c.kind? with
      | none =>
          obtain ⟨before, after, hroots, hrest⟩ := ih
          refine ⟨first ++ before, after, ?_, ?_⟩
          · have htrees : Control.trees (c :: rest) = Control.trees rest := by
              simp [Control.trees, hkind]
            simp only [Control.roots, hkind]
            rw [hroots, htrees, hfirst, List.filterMap_append, List.append_assoc]
          · rw [List.append_assoc, List.filter_append, hloose, hrest, List.flatMap_cons,
              List.filter_append]
      | some kind =>
          -- The chain begins here; what is left over by the rest stands behind it.
          obtain ⟨pieces, hpieces, hrest⟩ := flatMap_strays_pieces rest
          refine ⟨[], first ++ pieces, ?_, ?_⟩
          · have htrees : Control.trees (c :: rest) = c.tree kind :: Control.trees rest := by
              simp [Control.trees, hkind]
            simp only [Control.roots, hkind]
            rw [htrees, hfirst, hpieces, List.filterMap_append, List.append_assoc]
            rfl
          · rw [List.nil_append, List.filter_append, hloose, hrest, List.flatMap_cons,
              List.filter_append]

/-- Opening a program under the standard grammar and saving it yields its normal form. -/
theorem toProgram_ofProgram_eq_normal (layout : Layout) (p : Program) :
    (Graph.ofProgram .standard layout p).toProgram = p.normal := by
  rw [Graph.toProgram_ofProgram]
  unfold Program.trees Program.normal
  have hfirst : ∀ pieces : List Steps,
      pieces.filter (·.pick.isSome) = (p.controls.flatMap Control.loose).filter (·.pick.isSome) →
      (p.steps :: pieces).filter (·.pick.isSome) =
        (p.steps :: p.controls.flatMap Control.loose).filter (·.pick.isSome) := by
    intro pieces hpieces
    rw [List.filter_cons, List.filter_cons, hpieces]
  cases hlead : p.steps.leadTo p.controls with
  | true =>
      -- The controls go on behind the steps, so one chain holds both.
      obtain ⟨pieces, hpieces, hloose⟩ := flatMap_strays_pieces p.controls
      have hfilled : p.steps.toList.isEmpty = false := by
        cases hlist : p.steps.toList with
        | nil => simp [Steps.leadTo, hlist] at hlead
        | cons => rfl
      have haround := toProgram_around [] pieces p.steps p.controls
      rw [if_pos rfl, hpieces]
      apply haround.trans
      rw [List.nil_append, hfirst pieces hloose, hfilled]
      cases p.steps.pick <;> rfl
  | false =>
      -- The steps stand on their own, and so do the controls somewhere behind them.
      obtain ⟨before, after, hroots, hloose⟩ := roots_pieces p.controls
      have haround := toProgram_around (p.steps :: before) after .empty p.controls
      have hsteps : (p.steps :: before).filterMap Steps.tree? =
          p.steps.tree?.toList ++ before.filterMap Steps.tree? := by
        cases h : p.steps.tree? <;> simp [h]
      have hpieces : (p.steps :: before ++ Steps.empty :: after).filter (·.pick.isSome) =
          (p.steps :: (before ++ after)).filter (·.pick.isSome) := by
        simp [List.filter_cons, Steps.empty]
      rw [if_neg Bool.false_ne_true, hroots, ← List.append_assoc, ← hsteps]
      apply haround.trans
      rw [hpieces, hfirst _ hloose]
      rfl

end TaskDiagram
