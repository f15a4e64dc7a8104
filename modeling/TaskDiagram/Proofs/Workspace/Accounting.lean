import TaskDiagram.Grammar.Standard
import TaskDiagram.Proofs.Workspace.Silence

/-! # Loading a workspace accounts for everything in it

Every node becomes one block. An edge becomes a link, or the block below it becomes a root with one
report of the link that was not made. A field is taken as given, taken at the nearer bound with one
report, or refused with one report; a refused field is left out, but the count of a repetition,
which keeps the count that new repetitions have. Nothing else is reported. A workspace of which
nothing is reported is what the diagram is written as again.
-/

namespace TaskDiagram

/-- The nodes of a workspace, numbered in the order in which they are loaded. -/
def Workspace.numbered (grammar : Grammar) (w : Workspace) : List Numbered :=
  Tree.numberedForest grammar 0 (w.blocks.map Node.tree)

namespace Graph

variable {g g' g'' : Graph} {q : Numbered} {nodes : List Numbered}

/-! ## The whole run -/

theorem Settled.moved (h : g.Settled q) (hmoved : g.Moved g') : g'.Settled q := by
  obtain ⟨b, hb, hkind, hfields, hparent⟩ := h
  have hsame := hmoved.block? q.id
  rw [hb, Option.map_some] at hsame
  obtain ⟨b', hb', heq⟩ := Option.map_eq_some_iff.mp hsame
  have hkind' : b'.kind = b.kind := (congrArg Block.kind heq :)
  have hfields' : b'.fields = b.fields := (congrArg Block.fields heq :)
  have hparent' : b'.parent = b.parent := (congrArg Block.parent heq :)
  refine ⟨b', hb', hkind'.trans hkind, fun name => ?_, ?_⟩
  · rw [hfields', hmoved.grammar]
    exact hfields name
  · rw [hparent', hmoved.grammar]
    exact hparent

/-- Coordinates do not matter to what is accounted for. -/
theorem Accounts.moved (h : g.Accounts g' nodes) (hmoved : g'.Moved g'') :
    g.Accounts g'' nodes where
  forest := hmoved.isForest h.forest
  grammar := hmoved.grammar.trans h.grammar
  settled q hq := (h.settled q hq).moved hmoved
  pinned := hmoved.pinned ▸ h.pinned

/-- Every node of one root is accounted for. -/
theorem accounts_root (hg : g.IsForest) (hbounds : g.grammar.BoundsOrdered) (root : Node) :
    g.Accounts ((do Build.place (← Build.node root) root.x root.y : Build Unit) g).2
        (root.tree.numbered g.grammar g.nextId none) ∧
      ((do Build.place (← Build.node root) root.x root.y : Build Unit) g).2.nextId =
        g.nextId + root.tree.size := by
  have hrun : ((do Build.place (← Build.node root) root.x root.y : Build Unit) g).2 =
      (Build.place g.nextId root.x root.y (Build.sketch root.tree g).2).2 := by
    rw [Build.node_eq_sketch, ← Build.sketch_fst root.tree g]
    rfl
  rw [hrun]
  have hmoved := moved_place (Build.sketch root.tree g).2 g.nextId root.x root.y
  obtain ⟨haccounts, hnext⟩ := accounts_sketch root.tree hg hbounds
  exact ⟨haccounts.moved hmoved, hmoved.nextId.trans hnext⟩

/-- Every node is accounted for, root by root. -/
theorem accounts_workspace (roots : List Node) {g : Graph} (hg : g.IsForest)
    (hbounds : g.grammar.BoundsOrdered) :
    g.Accounts (Build.workspace ⟨roots⟩ g).2
        (Tree.numberedForest g.grammar g.nextId (roots.map Node.tree)) ∧
      (Build.workspace ⟨roots⟩ g).2.nextId =
        g.nextId + Tree.sizeForest (roots.map Node.tree) := by
  induction roots generalizing g with
  | nil =>
      refine ⟨⟨hg, rfl, by simp [Tree.numberedForest], ?_⟩, rfl⟩
      rw [List.map_nil, Tree.numberedForest, List.flatMap_nil, List.append_nil]
      exact List.Perm.refl _
  | cons root rest ih =>
      obtain ⟨hroot, hnext⟩ := accounts_root hg hbounds root
      obtain ⟨hrest, hlast⟩ := ih hroot.forest (hroot.grammar ▸ hbounds)
      rw [hroot.grammar, hnext] at hrest
      rw [hnext] at hlast
      constructor
      · refine hroot.append hrest fun q hq => ?_
        -- The blocks of one root are older than all that the roots behind it make.
        have hold := Build.spares_forM (n := g.nextId + root.tree.size) (l := rest)
          (fun other _ => Build.spares_root other) _ (Nat.le_of_eq hnext.symm)
        exact hold.2 q.id (Tree.id_of_mem_numbered hq).2
      · exact hlast.trans (Nat.add_assoc _ _ _)

theorem accounts_ofWorkspace {grammar : Grammar} (hbounds : grammar.BoundsOrdered)
    (layout : Layout) (w : Workspace) :
    (empty grammar).Accounts (ofWorkspace grammar layout w) (w.numbered grammar) ∧
      (w.numbered grammar).map (·.id) = List.range (ofWorkspace grammar layout w).nextId := by
  obtain ⟨haccounts, hnext⟩ := accounts_workspace w.blocks (isForest_empty grammar) hbounds
  have hmoved := moved_placeUnplaced layout 0 (Build.workspace w (empty grammar)).2.roots
    (Build.workspace w (empty grammar)).2
  have hsize : (ofWorkspace grammar layout w).nextId =
      Tree.sizeForest (w.blocks.map Node.tree) :=
    (hmoved.nextId.trans hnext).trans (Nat.zero_add _)
  refine ⟨haccounts.moved hmoved, ?_⟩
  rw [hsize, List.range_eq_range']
  exact Tree.map_id_numberedForest grammar _ 0

/-! ## What is reported of one block -/

/-- What was reported of a block while it was loaded. -/
def findingsAt (g : Graph) (id : BlockId) : List WarningKind :=
  (g.pinned.filter (·.block = some id)).map (·.kind)

/-- All reports about a block are those of its node. -/
theorem filter_flatMap_reports (grammar : Grammar) (hnodup : (nodes.map (·.id)).Nodup)
    (hq : q ∈ nodes) :
    (nodes.flatMap (Numbered.reports grammar)).filter (·.block = some q.id) =
      q.reports grammar := by
  have hself : ∀ p : Numbered, (p.reports grammar).filter (·.block = some p.id) =
      p.reports grammar := by
    intro p
    rw [Numbered.reports, reportsAt, List.filter_map]
    simp [Function.comp_def, Warning.about]
  have hother : ∀ p : Numbered, p.id ≠ q.id →
      (p.reports grammar).filter (·.block = some q.id) = [] := by
    intro p hne
    rw [Numbered.reports, reportsAt, List.filter_map]
    simp [Function.comp_def, Warning.about, hne]
  rw [List.filter_flatMap]
  induction nodes with
  | nil => cases hq
  | cons p rest ih =>
      obtain ⟨hp, hrest⟩ := List.nodup_cons.mp hnodup
      rw [List.flatMap_cons]
      rcases List.mem_cons.mp hq with rfl | hmem
      · have hnone : (rest.flatMap fun p =>
            (p.reports grammar).filter (·.block = some q.id)) = [] := by
          rw [List.flatMap_eq_nil_iff]
          intro p hmem
          exact hother p fun heq => hp (List.mem_map.mpr ⟨p, hmem, heq⟩)
        rw [hself, hnone, List.append_nil]
      · have hne : p.id ≠ q.id := fun heq => hp (List.mem_map.mpr ⟨q, hmem, heq.symm⟩)
        rw [hother p hne, ih hrest hmem, List.nil_append]

theorem Accounts.findingsAt {grammar : Grammar} (h : (empty grammar).Accounts g nodes)
    (hnodup : (nodes.map (·.id)).Nodup) (hq : q ∈ nodes) :
    (g.findingsAt q.id).Perm
      (grammar.fieldReports q.kind q.fields ++ q.linkReports grammar) := by
  have hperm := (h.pinned.filter (·.block = some q.id)).map Warning.kind
  have hreports := filter_flatMap_reports grammar hnodup hq
  have hkinds : (q.reports grammar).map Warning.kind =
      grammar.fieldReports q.kind q.fields ++ q.linkReports grammar := by
    rw [Numbered.reports, reportsAt, List.map_map]
    exact List.map_id _
  change (Graph.findingsAt g q.id).Perm
    (((nodes.flatMap (Numbered.reports grammar)).filter _).map Warning.kind) at hperm
  rwa [hreports, hkinds] at hperm

end Graph

namespace WarningKind

/-- Whether a link was not made. -/
def isRejection : WarningKind → Bool
  | rejectedLink _ _ _ => true
  | _ => false

/-- The field whose value was moved or refused. -/
def field? : WarningKind → Option String
  | fieldClamped field _ _ => some field
  | invalidField field _ => some field
  | _ => none

end WarningKind

namespace Grammar

variable {grammar : Grammar} {kind : BlockKind} {name : String} {value : FieldValue}
  {report : WarningKind}

/-- What is reported of a field names the field. -/
theorem of_mem_report (h : report ∈ (grammar.receive kind name value).report) :
    report.field? = some name ∧ report.isRejection = false := by
  unfold receive at h
  split at h
  next => cases h
  next hcheck =>
    cases h
    exact ⟨rfl, rfl⟩
  next =>
    cases h
    exact ⟨rfl, rfl⟩

theorem of_mem_fieldReports {fields : FieldMap} (h : report ∈ grammar.fieldReports kind fields) :
    report.isRejection = false ∧ ∃ field value, fields.get? field = some value ∧
      report ∈ (grammar.receive kind field value).report := by
  obtain ⟨⟨field, value⟩, hmem, hreport⟩ := List.mem_filterMap.mp h
  exact ⟨(of_mem_report hreport).2, field, value,
    (mem_iff_findValue? fields.increasing field value).mp hmem, hreport⟩

/-- A field is reported of at most once, since it is given at most once. -/
theorem filter_fieldReports (fields : FieldMap) (name : String) :
    (grammar.fieldReports kind fields).filter (·.field? = some name) =
      ((fields.get? name).bind fun value => (grammar.receive kind name value).report).toList := by
  obtain ⟨entries, hincreasing⟩ := fields
  unfold fieldReports TextMap.get?
  dsimp only
  have hself : ∀ value, ((grammar.receive kind name value).report.toList).filter
      (·.field? = some name) = (grammar.receive kind name value).report.toList := by
    intro value
    rw [List.filter_eq_self]
    intro report hreport
    simpa using (of_mem_report (Option.mem_toList.mp hreport)).1
  have hother : ∀ field value, field ≠ name →
      ((grammar.receive kind field value).report.toList).filter (·.field? = some name) = [] := by
    intro field value hne
    rw [List.filter_eq_nil_iff]
    intro report hreport
    simpa [(of_mem_report (Option.mem_toList.mp hreport)).1] using hne
  rw [List.filterMap_eq_flatMap_toList, List.filter_flatMap]
  induction entries with
  | nil => rfl
  | cons entry rest ih =>
      obtain ⟨field, value⟩ := entry
      rw [List.flatMap_cons, ih (List.pairwise_cons.mp hincreasing).2]
      by_cases hname : field = name
      · subst hname
        rw [hself, findValue?_of_increasing hincreasing]
        simp [findValue?]
      · rw [hother field value hname]
        simp [findValue?, hname]

/-- The only field of a new block with something in it is the count of a repetition. -/
theorem get?_defaults_standard (kind : BlockKind) (name : String) :
    (standard.defaults kind).get? name =
      if kind = .repeated ∧ name = fieldTimes then some (.int repeatDefault) else none := by
  cases kind with
  | repeated =>
      change (TextMap.empty.insert fieldTimes (FieldValue.int repeatDefault)).get? name = _
      rw [TextMap.get?_insert]
      simp
  | _ => rfl

end Grammar

theorem Numbered.of_mem_linkReports {grammar : Grammar} {q : Numbered} {report : WarningKind}
    (h : report ∈ q.linkReports grammar) :
    q.hook.isSome ∧ report.isRejection = true ∧ report.field? = none := by
  obtain ⟨hook, hhook, hreport⟩ := Option.bind_eq_some_iff.mp (Option.mem_toList.mp h)
  rw [hhook]
  split at hreport
  next => cases hreport
  next =>
    cases hreport
    exact ⟨rfl, rfl, rfl⟩

namespace Graph

variable {g : Graph} {q : Numbered} {nodes : List Numbered} {grammar : Grammar}

theorem eq_toList_of_perm {α : Type} {l : List α} {o : Option α} (h : l.Perm o.toList) :
    l = o.toList := by
  cases o with
  | none => exact List.perm_nil.mp h
  | some a => exact List.perm_singleton.mp h

section Account

variable (h : (empty grammar).Accounts g nodes) (hnodup : (nodes.map (·.id)).Nodup) (hq : q ∈ nodes)

include h hnodup hq

/-- The links reported at a block are the one its node hangs on, if that is not made. -/
theorem Accounts.rejections :
    (g.findingsAt q.id).filter (·.isRejection) = q.linkReports grammar := by
  have hperm := (h.findingsAt hnodup hq).filter (·.isRejection)
  have hfields : (grammar.fieldReports q.kind q.fields).filter (·.isRejection) = [] := by
    rw [List.filter_eq_nil_iff]
    intro report hreport
    simp [(Grammar.of_mem_fieldReports hreport).1]
  have hlinks : (q.linkReports grammar).filter (·.isRejection) = q.linkReports grammar := by
    rw [List.filter_eq_self]
    exact fun report hreport => (Numbered.of_mem_linkReports hreport).2.1
  rw [List.filter_append, hfields, hlinks, List.nil_append] at hperm
  exact eq_toList_of_perm hperm

/-- What is reported of a field of a block is what its node gives for it. -/
theorem Accounts.fieldFindings (name : String) :
    (g.findingsAt q.id).filter (·.field? = some name) =
      ((q.fields.get? name).bind fun value =>
        (grammar.receive q.kind name value).report).toList := by
  have hperm := (h.findingsAt hnodup hq).filter (·.field? = some name)
  have hlinks : (q.linkReports grammar).filter (·.field? = some name) = [] := by
    rw [List.filter_eq_nil_iff]
    intro report hreport
    simp [(Numbered.of_mem_linkReports hreport).2.2]
  rw [List.filter_append, Grammar.filter_fieldReports, hlinks, List.append_nil] at hperm
  exact eq_toList_of_perm hperm

end Account

/-! ## What becomes of an edge -/

/-- Where a block ends up, and which links to it are reported. -/
inductive EdgeOutcome (g : Graph) (q : Numbered) : Prop
  /-- The node is the head of a chain of the workspace. -/
  | head (above : q.hook = none) (root : q.id ∈ g.roots)
      (reports : (g.findingsAt q.id).filter (·.isRejection) = [])
  | linked (hook : Hook) (above : q.hook = some hook)
      (link : g.child? hook.owner hook.socket = some q.id)
      (reports : (g.findingsAt q.id).filter (·.isRejection) = [])
  | rejected (hook : Hook) (above : q.hook = some hook) (root : q.id ∈ g.roots)
      (reports : (g.findingsAt q.id).filter (·.isRejection) =
        [.rejectedLink hook.kind hook.socket q.kind])

theorem Accounts.edgeOutcome (h : (empty grammar).Accounts g nodes)
    (hnodup : (nodes.map (·.id)).Nodup) (hq : q ∈ nodes) : g.EdgeOutcome q := by
  have hreports := h.rejections hnodup hq
  obtain ⟨b, hb, -, -, hplace⟩ := h.settled q hq
  have hgrammar : g.grammar = grammar := h.grammar
  have hparent : g.parent? q.id = q.place grammar := by
    rw [parent?, hb, ← hgrammar]
    exact hplace
  have hlive : g.Live q.id := by rw [Live, hb]; rfl
  have hroot : q.place grammar = none → q.id ∈ g.roots :=
    fun hnone => h.forest.mem_roots.mpr ⟨hlive, hparent.trans hnone⟩
  unfold Numbered.place at hparent hroot
  unfold Numbered.linkReports at hreports
  cases habove : q.hook with
  | none =>
      rw [habove] at hroot hreports
      exact .head habove (hroot rfl) hreports
  | some hook =>
      rw [habove, Option.bind_some] at hparent hroot hreports
      by_cases hholds : hook.holds grammar q.kind = true
      · rw [if_pos hholds] at hparent hreports
        exact .linked hook habove (h.forest.mirror.mp hparent) hreports
      · rw [if_neg hholds] at hroot hreports
        exact .rejected hook habove (hroot rfl) hreports

/-! ## What becomes of a field -/

/-- What a field of a block holds. -/
def fieldAt (g : Graph) (id : BlockId) (name : String) : Option FieldValue :=
  (g.block? id).bind (·.field? name)

/-- What a field of a block holds and what is reported of it, under the standard grammar. -/
inductive FieldOutcome (g : Graph) (q : Numbered) (name : String) : Prop
  | missing (given : q.fields.get? name = none) (held : g.fieldAt q.id name = none)
      (reports : (g.findingsAt q.id).filter (·.field? = some name) = [])
  | kept (value : FieldValue) (given : q.fields.get? name = some value)
      (admitted : Grammar.standard.checkField q.kind name value = .ok ())
      (held : g.fieldAt q.id name = some value)
      (reports : (g.findingsAt q.id).filter (·.field? = some name) = [])
  | clamped (value : FieldValue) (low high n : Int64) (given : q.fields.get? name = some value)
      (beyond : Grammar.standard.checkField q.kind name value =
        .error (.outOfRange name low high n))
      (held : g.fieldAt q.id name = some (.int (Grammar.nearest low high n)))
      (reports : (g.findingsAt q.id).filter (·.field? = some name) =
        [.fieldClamped name n (Grammar.nearest low high n)])
  /-- The count of a repetition is not left out, but stays what it is in new ones. -/
  | refused (value : FieldValue) (refusal : FieldRefusal)
      (given : q.fields.get? name = some value)
      (refusal_eq : Grammar.standard.checkField q.kind name value = .error refusal)
      (held : g.fieldAt q.id name = if q.kind = .repeated ∧ name = fieldTimes then
        some (.int Grammar.repeatDefault) else none)
      (reports : (g.findingsAt q.id).filter (·.field? = some name) =
        [.invalidField name refusal.message])

theorem Accounts.fieldOutcome (h : (empty .standard).Accounts g nodes)
    (hnodup : (nodes.map (·.id)).Nodup) (hq : q ∈ nodes) (name : String) :
    g.FieldOutcome q name := by
  have hreports := h.fieldFindings hnodup hq name
  obtain ⟨b, hb, -, hfields, -⟩ := h.settled q hq
  have hgrammar : g.grammar = .standard := h.grammar
  have hheld : g.fieldAt q.id name = Grammar.standard.received? q.kind q.fields name := by
    rw [fieldAt, hb, ← hgrammar]
    exact hfields name
  -- The outcome follows the check of the value, as the loading itself does.
  unfold Grammar.received? at hheld
  cases hgiven : q.fields.get? name with
  | none =>
      rw [hgiven] at hheld hreports
      exact .missing hgiven hheld hreports
  | some value =>
      rw [hgiven, Option.bind_some] at hheld hreports
      unfold Grammar.receive at hheld hreports
      cases hcheck : Grammar.standard.checkField q.kind name value with
      | ok =>
          rw [hcheck] at hheld hreports
          exact .kept value hgiven hcheck hheld hreports
      | error refusal =>
          rw [hcheck] at hheld hreports
          cases refusal with
          | outOfRange field low high n =>
              obtain rfl := (Grammar.checkField_eq_outOfRange hcheck).1
              exact .clamped value low high n hgiven hcheck hheld hreports
          | _ =>
              rw [Option.none_or, Grammar.get?_defaults_standard] at hheld
              exact .refused value _ hgiven hcheck hheld hreports

/-! ## The account -/

/-- A workspace of which nothing is reported shows the trees of the diagram made of it. -/
theorem trees_of_silent (hbounds : grammar.BoundsOrdered) (layout : Layout) (w : Workspace)
    (hsilent : (ofWorkspace grammar layout w).pinned = []) :
    (ofWorkspace grammar layout w).toWorkspace.blocks.map Node.tree = w.blocks.map Node.tree := by
  obtain ⟨haccounts, -⟩ := accounts_ofWorkspace hbounds layout w
  have hperm := haccounts.pinned
  rw [hsilent] at hperm
  -- No node reports anything, so each tree fits the grammar and is planted as it is.
  have hreports := List.flatMap_eq_nil_iff.mp (List.nil_perm.mp hperm)
  have hfits := Tree.fits_of_silent_forest
    (List.forall_mem_map.mpr fun node _ => node.ordered_tree) hreports
  have hplanted := planted_ofWorkspace grammar layout w (List.forall_mem_map.mp hfits)
  obtain ⟨ids, hroots, hshows, -⟩ := hplanted.roots
  obtain rfl : (ofWorkspace grammar layout w).roots = ids := hroots
  exact (map_tree_toWorkspace _).trans (hplanted.forest.forest_eq hshows)

/-- Each node has a block of its own, which is of its kind and hangs where the node hangs or is a
root, and whose fields are what becomes of the fields of the node. All that is reported is a link
that was not made or a field that was given. Without a report nothing is lost. -/
theorem loading_accounts_for_every_node (layout : Layout) (w : Workspace) :
    let g := ofWorkspace .standard layout w
    let nodes := w.numbered .standard
    nodes.map (·.id) = List.range g.nextId ∧
    (∀ q ∈ nodes, g.kind? q.id = some q.kind ∧
      (∀ hook, q.hook = some hook → g.kind? hook.owner = some hook.kind) ∧
      g.EdgeOutcome q ∧ ∀ name, g.FieldOutcome q name) ∧
    (∀ warning ∈ g.pinned, ∃ q ∈ nodes, warning.block = some q.id ∧
      ((q.hook.isSome ∧ warning.kind.isRejection = true) ∨
        ∃ name, (q.fields.get? name).isSome ∧ warning.kind.field? = some name)) ∧
    (g.pinned = [] → g.toWorkspace.blocks.map Node.tree = w.blocks.map Node.tree) := by
  intro g nodes
  obtain ⟨haccounts, hids⟩ := accounts_ofWorkspace Grammar.boundsOrdered_standard layout w
  have hnodup : (nodes.map (·.id)).Nodup := hids ▸ List.nodup_range
  have hkind : ∀ q ∈ nodes, g.kind? q.id = some q.kind := by
    intro q hq
    obtain ⟨b, hb, hkind, -⟩ := haccounts.settled q hq
    rw [kind?, hb, ← hkind]
    rfl
  refine ⟨hids, fun q hq => ⟨hkind q hq, fun hook hhook => ?_, haccounts.edgeOutcome hnodup hq,
    haccounts.fieldOutcome hnodup hq⟩, fun warning hwarning => ?_,
    trees_of_silent Grammar.boundsOrdered_standard layout w⟩
  · obtain ⟨p, hp, howner, hpkind⟩ := Tree.owner_of_mem_numberedForest hq hhook
    rw [← howner, ← hpkind]
    exact hkind p hp
  · obtain ⟨q, hq, hreport⟩ := List.mem_flatMap.mp (haccounts.pinned.mem_iff.mp hwarning)
    rw [Numbered.reports, reportsAt] at hreport
    obtain ⟨report, hmem, rfl⟩ := List.mem_map.mp hreport
    refine ⟨q, hq, rfl, ?_⟩
    rcases List.mem_append.mp hmem with hfield | hlink
    · obtain ⟨-, name, value, hgiven, hfound⟩ := Grammar.of_mem_fieldReports hfield
      exact .inr ⟨name, by rw [hgiven]; rfl, (Grammar.of_mem_report hfound).1⟩
    · obtain ⟨hhook, hrejection, -⟩ := Numbered.of_mem_linkReports hlink
      exact .inl ⟨hhook, hrejection⟩

/-- A count that is no number is reported as left out, and the repetition has two runs. -/
theorem refused_count_becomes_default :
    let node : Node :=
      ⟨.repeated, .ofList [(fieldTimes, .text "many")], none, none, none, .empty⟩
    let g := ofWorkspace .standard .standard ⟨[node]⟩
    g.pinned = [.about 0 (.invalidField fieldTimes "field 'times' expects an integer")] ∧
      g.fieldAt 0 fieldTimes = some (.int 2) :=
  ⟨rfl, rfl⟩

end Graph

end TaskDiagram
