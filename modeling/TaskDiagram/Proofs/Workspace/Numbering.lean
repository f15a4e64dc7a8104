import Mathlib.Data.List.Perm.Basic
import TaskDiagram.Proofs.Graph.Loading.Run
import TaskDiagram.Proofs.Workspace.Reloading

/-! # The blocks a workspace is loaded into

The nodes of a workspace are numbered in the order in which they are come upon, and the number of a
node is the id of its block. Where a node hangs decides where its block ends up: under the block of
its owner when the grammar accepts the link and no other node has taken the socket, else among the
roots. What is put on a block and what is reported of it can be said of its node alone.
-/

namespace TaskDiagram

/-- The socket in which a node hangs, and the kind of its owner. -/
structure Hook where
  owner : BlockId
  kind : BlockKind
  socket : SocketName
  /-- Whether no node before this one was linked into the socket. -/
  free : Bool

/-- Whether the link to a node of a kind is made. -/
def Hook.holds (grammar : Grammar) (hook : Hook) (kind : BlockKind) : Bool :=
  hook.free && grammar.accepts hook.kind hook.socket kind

/-- A node with its number. -/
structure Numbered where
  id : BlockId
  kind : BlockKind
  fields : FieldMap
  hook : Option Hook

namespace Numbered

/-- Where the block of the node is plugged in. -/
def place (grammar : Grammar) (q : Numbered) : Option (BlockId × SocketName) :=
  q.hook.bind fun hook =>
    if hook.holds grammar q.kind then some (hook.owner, hook.socket) else none

/-- The report of a link that is not made. -/
def linkReports (grammar : Grammar) (q : Numbered) : List WarningKind :=
  (q.hook.bind fun hook =>
    if hook.holds grammar q.kind then none
    else some (.rejectedLink hook.kind hook.socket q.kind)).toList

/-- All that is reported of a node. -/
def reports (grammar : Grammar) (q : Numbered) : List Warning :=
  Graph.reportsAt q.id (grammar.fieldReports q.kind q.fields ++ q.linkReports grammar)

end Numbered

namespace Tree

mutual

/-- The nodes of a tree, numbered from `id` on. -/
def numbered (grammar : Grammar) (id : BlockId) (hook : Option Hook) : Tree → List Numbered
  | node kind fields inputs =>
      ⟨id, kind, fields, hook⟩ :: numberedInputs grammar id kind [] (id + 1) inputs

/-- The nodes in the sockets of an owner, given the sockets that are filled. -/
def numberedInputs (grammar : Grammar) (owner : BlockId) (kind : BlockKind)
    (filled : List SocketName) (id : BlockId) : List (SocketName × Tree) → List Numbered
  | [] => []
  | (socket, tree) :: rest =>
      let hook : Hook := ⟨owner, kind, socket, !filled.contains socket⟩
      tree.numbered grammar id (some hook) ++
        numberedInputs grammar owner kind
          (if hook.holds grammar tree.kind then socket :: filled else filled) (id + tree.size) rest

end

/-- Number of nodes of some trees. -/
def sizeForest : List Tree → Nat
  | [] => 0
  | tree :: rest => tree.size + sizeForest rest

/-- The nodes of some trees, numbered from `id` on. -/
def numberedForest (grammar : Grammar) (id : BlockId) : List Tree → List Numbered
  | [] => []
  | tree :: rest => tree.numbered grammar id none ++ numberedForest grammar (id + tree.size) rest

/-- The nodes below the first. -/
def numberedBelow (grammar : Grammar) (id : BlockId) (tree : Tree) : List Numbered :=
  numberedInputs grammar id tree.kind [] (id + 1) tree.inputs

/-- A tree begins with its own node. -/
theorem numbered_eq (grammar : Grammar) (id : BlockId) (hook : Option Hook) (tree : Tree) :
    tree.numbered grammar id hook =
      ⟨id, tree.kind, tree.fields, hook⟩ :: tree.numberedBelow grammar id := by
  cases tree
  rfl

mutual

/-- Numbers go up by one from node to node. -/
theorem map_id_numbered (grammar : Grammar) (id : BlockId) (hook : Option Hook) : ∀ tree : Tree,
    (tree.numbered grammar id hook).map (·.id) = List.range' id tree.size
  | node kind fields inputs => by
      rw [numbered, List.map_cons, map_id_numberedInputs grammar id kind [] (id + 1) inputs, size,
        List.range'_succ]

/-- The nodes in the sockets of an owner are numbered one after the other. -/
theorem map_id_numberedInputs (grammar : Grammar) (owner : BlockId) (kind : BlockKind)
    (filled : List SocketName) (id : BlockId) : ∀ inputs : List (SocketName × Tree),
    (numberedInputs grammar owner kind filled id inputs).map (·.id) =
      List.range' id (sizeList inputs)
  | [] => rfl
  | (socket, tree) :: rest => by
      rw [numberedInputs, List.map_append, map_id_numbered grammar id _ tree,
        map_id_numberedInputs grammar owner kind _ (id + tree.size) rest, List.range'_append_1,
        sizeList]

end

theorem map_id_numberedForest (grammar : Grammar) (trees : List Tree) (id : BlockId) :
    (numberedForest grammar id trees).map (·.id) = List.range' id (sizeForest trees) := by
  induction trees generalizing id with
  | nil => rfl
  | cons tree rest ih =>
      rw [numberedForest, List.map_append, map_id_numbered, ih, List.range'_append_1, sizeForest]

variable {grammar : Grammar} {q : Numbered} {id owner : BlockId} {tree : Tree}

/-- The numbers in a tree are those from its first on, as many as it has nodes. -/
theorem id_of_mem_numbered {hook : Option Hook} (h : q ∈ tree.numbered grammar id hook) :
    id ≤ q.id ∧ q.id < id + tree.size := by
  have hmem : q.id ∈ List.range' id tree.size :=
    map_id_numbered grammar id hook tree ▸ List.mem_map_of_mem h
  simpa [List.mem_range'_1] using hmem

theorem id_of_mem_numberedInputs {kind : BlockKind} {filled : List SocketName}
    {inputs : List (SocketName × Tree)}
    (h : q ∈ numberedInputs grammar owner kind filled id inputs) :
    id ≤ q.id ∧ q.id < id + sizeList inputs := by
  have hmem : q.id ∈ List.range' id (sizeList inputs) :=
    map_id_numberedInputs grammar owner kind filled id inputs ▸ List.mem_map_of_mem h
  simpa [List.mem_range'_1] using hmem

mutual

/-- The owner of a node is a node of the tree, but for the hook of the tree itself. -/
theorem owner_of_mem_numbered : ∀ (tree : Tree) {id : BlockId} {top : Option Hook} {q : Numbered}
    {hook : Hook}, q ∈ tree.numbered grammar id top → q.hook = some hook →
    top = some hook ∨ ∃ p ∈ tree.numbered grammar id top, p.id = hook.owner ∧ p.kind = hook.kind
  | node kind fields inputs, id, top, q, hook, hq, hhook => by
      rcases List.mem_cons.mp hq with rfl | hbelow
      · exact .inl hhook
      · right
        rcases owner_of_mem_numberedInputs inputs hbelow hhook with hself | ⟨p, hp, howner⟩
        · exact ⟨_, List.mem_cons_self, hself⟩
        · exact ⟨p, List.mem_cons_of_mem _ hp, howner⟩

/-- The owner of a node in the sockets of a block is that block or a node in them. -/
theorem owner_of_mem_numberedInputs : ∀ (inputs : List (SocketName × Tree)) {owner : BlockId}
    {kind : BlockKind} {filled : List SocketName} {id : BlockId} {q : Numbered} {hook : Hook},
    q ∈ numberedInputs grammar owner kind filled id inputs → q.hook = some hook →
    (owner = hook.owner ∧ kind = hook.kind) ∨
      ∃ p ∈ numberedInputs grammar owner kind filled id inputs,
        p.id = hook.owner ∧ p.kind = hook.kind
  | [], _, _, _, _, _, _, hq, _ => by
      rw [numberedInputs] at hq
      exact absurd hq List.not_mem_nil
  | (socket, tree) :: rest, owner, kind, filled, id, q, hook, hq, hhook => by
      rw [numberedInputs] at hq ⊢
      rcases List.mem_append.mp hq with hq | hq
      · rcases owner_of_mem_numbered tree hq hhook with hself | ⟨p, hp, howner⟩
        · cases hself
          exact .inl ⟨rfl, rfl⟩
        · exact .inr ⟨p, List.mem_append_left _ hp, howner⟩
      · rcases owner_of_mem_numberedInputs rest hq hhook with hself | ⟨p, hp, howner⟩
        · exact .inl hself
        · exact .inr ⟨p, List.mem_append_right _ hp, howner⟩

end

/-- The owner of a node is a node of the same trees. -/
theorem owner_of_mem_numberedForest {trees : List Tree} {hook : Hook}
    (hq : q ∈ numberedForest grammar id trees) (hhook : q.hook = some hook) :
    ∃ p ∈ numberedForest grammar id trees, p.id = hook.owner ∧ p.kind = hook.kind := by
  induction trees generalizing id with
  | nil => cases hq
  | cons tree rest ih =>
      rcases List.mem_append.mp hq with hq | hq
      · rcases owner_of_mem_numbered tree hq hhook with hself | ⟨p, hp, howner⟩
        · cases hself
        · exact ⟨p, List.mem_append_left _ hp, howner⟩
      · obtain ⟨p, hp, howner⟩ := ih hq
        exact ⟨p, List.mem_append_right _ hp, howner⟩

theorem lt_id_of_mem_numberedBelow (h : q ∈ tree.numberedBelow grammar id) : id < q.id :=
  (id_of_mem_numberedInputs h).1

end Tree

namespace Graph

variable {g g' g'' : Graph} {q : Numbered}

theorem isForest_of_edits {α : Type} {m : Build α} (hm : Build.Edits m) (hg : g.IsForest) :
    (m g).2.IsForest ∧ (m g).2.grammar = g.grammar := by
  obtain ⟨edits, hedits⟩ := hm g
  rw [hedits]
  exact ⟨hg.run edits, grammar_run g edits⟩

/-! ## What becomes of a node -/

/-- The block of a node: of its kind, with the fields it receives, and plugged in where the node
hangs if that link is made. -/
def Settled (g : Graph) (q : Numbered) : Prop :=
  ∃ b, g.block? q.id = some b ∧ b.kind = q.kind ∧
    (∀ name, b.fields.get? name = g.grammar.received? q.kind q.fields name) ∧
    b.parent = q.place g.grammar

theorem Settled.of_same (h : g.Settled q) (hgrammar : g'.grammar = g.grammar)
    (hblock : g'.block? q.id = g.block? q.id) : g'.Settled q := by
  rwa [Settled, hblock, hgrammar]

/-- The same nodes and findings, with room for the findings that were there before. -/
structure Accounts (g g' : Graph) (nodes : List Numbered) : Prop where
  forest : g'.IsForest
  grammar : g'.grammar = g.grammar
  settled : ∀ q ∈ nodes, g'.Settled q
  pinned : g'.pinned.Perm (g.pinned ++ nodes.flatMap (Numbered.reports g.grammar))

/-- What is loaded later leaves the nodes before it as they are. -/
theorem Accounts.append {nodes nodes' : List Numbered} (h : g.Accounts g' nodes)
    (h' : g'.Accounts g'' nodes') (hsame : ∀ q ∈ nodes, g''.block? q.id = g'.block? q.id) :
    g.Accounts g'' (nodes ++ nodes') where
  forest := h'.forest
  grammar := h'.grammar.trans h.grammar
  settled q hq := by
    rcases List.mem_append.mp hq with hq | hq
    · exact (h.settled q hq).of_same h'.grammar (hsame q hq)
    · exact h'.settled q hq
  pinned := by
    have hpinned := h'.pinned
    rw [h.grammar] at hpinned
    rw [List.flatMap_append, ← List.append_assoc]
    exact hpinned.trans (h.pinned.append_right _)

/-- Blocks that were there before are none below a block that came later. -/
theorem climb_lt_nextId (hg : g.IsForest)
    (holder : ∀ id < g.nextId, g'.block? id = g.block? id) {n : Nat} {id ancestor : Nat}
    (hid : id < g.nextId) (h : g'.climb n id = some ancestor) : ancestor < g.nextId := by
  induction n generalizing id with
  | zero => exact Option.some.inj h ▸ hid
  | succ n ih =>
      obtain ⟨⟨parent, socket⟩, hplace, hclimb⟩ := Option.bind_eq_some_iff.mp h
      rw [parent?, holder id hid] at hplace
      exact ih (hg.live_parent hplace).lt_nextId hclimb

/-- A root that came later is linked when the socket accepts it and is free, else reported. -/
theorem link_new (hg' : g'.IsForest) (hg : g.IsForest)
    (holder : ∀ id < g.nextId, g'.block? id = g.block? id) {owner child : Nat} {p c : Block}
    (hp : g'.block? owner = some p) (hlt : owner < g.nextId) (hc : g'.block? child = some c)
    (hle : g.nextId ≤ child) (hloose : c.parent = none) (socket : SocketName) :
    Build.link owner socket child g' = ((),
      if p.inputs.get? socket = none ∧ g'.grammar.accepts p.kind socket c.kind = true then
        g'.plug owner socket child
      else g'.pin (.about child (.rejectedLink p.kind socket c.kind))) := by
  have hapart : g'.isAncestor child owner = false := by
    rw [Bool.eq_false_iff]
    intro habove
    obtain ⟨n, hn⟩ := hg'.isAncestor_iff.mp habove
    exact absurd (climb_lt_nextId hg holder hlt hn) (Nat.not_lt_of_le hle)
  have hiff : g'.Pluggable owner socket child ↔
      p.inputs.get? socket = none ∧ g'.grammar.accepts p.kind socket c.kind = true := by
    rw [pluggable_iff hp hc]
    simp only [hloose, hapart, true_and, and_true]
    exact and_comm
  split
  next h => exact link_eq_plug (hiff.mpr h)
  next h =>
    refine link_eq_pin_of_not_pluggable ?_ ?_ (mt hiff.mp h)
    · rw [kind?, hp]
      rfl
    · rw [kind?, hc]
      rfl

/-! ## What is plugged into an owner -/

/-- The sockets of a block that are filled. -/
def Filled (p : Block) (filled : List SocketName) : Prop :=
  ∀ socket, socket ∈ filled ↔ p.inputs.get? socket ≠ none

/-- `g'` is `g` with the blocks of some nodes in the sockets of an owner, or beside it. -/
structure Serves (g g' : Graph) (owner : BlockId) (p p' : Block) (count : Nat)
    (nodes : List Numbered) : Prop extends Accounts g g' nodes where
  nextId : g'.nextId = g.nextId + count
  others : ∀ id < g.nextId, id ≠ owner → g'.block? id = g.block? id
  owner : g'.block? owner = some p'
  kind : p'.kind = p.kind
  fields : p'.fields = p.fields
  parent : p'.parent = p.parent

/-- Sockets of one owner are filled one after the other. -/
theorem Serves.trans {owner : BlockId} {p p' p'' : Block} {count count' : Nat}
    {nodes nodes' : List Numbered} (h : g.Serves g' owner p p' count nodes)
    (h' : g'.Serves g'' owner p' p'' count' nodes')
    (hnodes : ∀ q ∈ nodes, q.id < g'.nextId ∧ q.id ≠ owner) :
    g.Serves g'' owner p p'' (count + count') (nodes ++ nodes') where
  toAccounts := h.toAccounts.append h'.toAccounts fun q hq =>
    h'.others q.id (hnodes q hq).1 (hnodes q hq).2
  nextId := by rw [h'.nextId, h.nextId, Nat.add_assoc]
  others id hid hne := by
    have hlt : id < g'.nextId := h.nextId ▸ Nat.lt_add_right count hid
    exact (h'.others id hlt hne).trans (h.others id hid hne)
  owner := h'.owner
  kind := h'.kind.trans h.kind
  fields := h'.fields.trans h.fields
  parent := h'.parent.trans h.parent

/-- The report of a link comes behind those of the nodes below it. -/
theorem reports_perm (grammar : Grammar) (q : Numbered) (below : List Numbered) (hook : Hook) :
    ((⟨q.id, q.kind, q.fields, some hook⟩ :: below).flatMap (Numbered.reports grammar)).Perm
      ((⟨q.id, q.kind, q.fields, none⟩ :: below).flatMap (Numbered.reports grammar) ++
        reportsAt q.id
          (Numbered.linkReports grammar ⟨q.id, q.kind, q.fields, some hook⟩)) := by
  simp only [List.flatMap_cons, Numbered.reports, reportsAt, List.map_append]
  have hnone : Numbered.linkReports grammar ⟨q.id, q.kind, q.fields, none⟩ = [] := rfl
  rw [hnone, List.map_nil, List.append_nil, List.append_assoc, List.append_assoc]
  exact List.perm_append_comm.append_left _

section Child

variable {owner : Nat} {p : Block} {socket : SocketName} {hook : Hook} {t : Tree}
  (hsketch : g.Accounts g' (t.numbered g.grammar g.nextId none))
  (hnext : g'.nextId = g.nextId + t.size) (holder : ∀ id < g.nextId, g'.block? id = g.block? id)
  (hp : g.block? owner = some p) (hlt : owner < g.nextId)

include hsketch hnext holder hp hlt

/-- A node whose link is made. -/
theorem serves_plug (hplace : Numbered.place g.grammar ⟨g.nextId, t.kind, t.fields, some hook⟩ =
      some (owner, socket))
    (hreports : Numbered.linkReports g.grammar ⟨g.nextId, t.kind, t.fields, some hook⟩ = [])
    (hforest : (g'.plug owner socket g.nextId).IsForest) :
    g.Serves (g'.plug owner socket g.nextId) owner p
      { p with inputs := p.inputs.set (some g.nextId) socket } t.size
      (t.numbered g.grammar g.nextId (some hook)) := by
  rw [Tree.numbered_eq] at hsketch ⊢
  obtain ⟨c, hc, hkind, hfields, -⟩ := hsketch.settled _ List.mem_cons_self
  have hperm := reports_perm g.grammar ⟨g.nextId, t.kind, t.fields, none⟩
    (t.numberedBelow g.grammar g.nextId) hook
  have hgrammar : (g'.plug owner socket g.nextId).grammar = g.grammar :=
    (grammar_relink _ _ _ _ _ _ _).trans hsketch.grammar
  have hblock : ∀ id, (g'.plug owner socket g.nextId).block? id = (g'.block? id).map fun b =>
      { b with
        inputs := if id = owner then b.inputs.set (some g.nextId) socket else b.inputs
        parent := if id = g.nextId then some (owner, socket) else b.parent } :=
    fun id => block?_relink _ _ _ _ _ _ _ id
  refine ⟨⟨hforest, hgrammar, ?_, ?_⟩, (nextId_relink _ _ _ _ _ _ _).trans hnext, ?_, ?_, rfl, rfl,
    rfl⟩
  -- Of the nodes loaded so far only the topmost one gets an owner.
  · intro q hq
    obtain rfl | hq := List.mem_cons.mp hq
    · refine ⟨_, (hblock _).trans (congrArg _ hc), hkind, fun name => ?_, ?_⟩
      · rw [hgrammar, ← hsketch.grammar]
        exact hfields name
      · rw [hgrammar, hplace]
        exact if_pos rfl
    · refine (hsketch.settled q (List.mem_cons_of_mem _ hq)).of_same
        (hgrammar.trans hsketch.grammar.symm) ?_
      have hlater : g.nextId < q.id := Tree.lt_id_of_mem_numberedBelow hq
      have hne : q.id ≠ g.nextId := Nat.ne_of_gt hlater
      have hne' : q.id ≠ owner := Nat.ne_of_gt (hlt.trans hlater)
      rw [hblock]
      simp [hne, hne']
  · rw [hreports, reportsAt, List.map_nil, List.append_nil] at hperm
    rw [plug, pinned_relink]
    exact hsketch.pinned.trans (hperm.symm.append_left _)
  · intro id hid hne
    rw [hblock, holder id hid]
    simp [hne, Nat.ne_of_lt hid]
  · rw [hblock, holder owner hlt, hp]
    simp [Nat.ne_of_lt hlt]

/-- A node whose link is not made, and is reported. -/
theorem serves_pin (hplace : Numbered.place g.grammar ⟨g.nextId, t.kind, t.fields, some hook⟩ = none)
    {report : WarningKind}
    (hreports : Numbered.linkReports g.grammar ⟨g.nextId, t.kind, t.fields, some hook⟩ = [report]) :
    g.Serves (g'.pin (.about g.nextId report)) owner p p t.size
      (t.numbered g.grammar g.nextId (some hook)) := by
  rw [Tree.numbered_eq] at hsketch ⊢
  obtain ⟨c, hc, hkind, hfields, hloose⟩ := hsketch.settled _ List.mem_cons_self
  have hperm := reports_perm g.grammar ⟨g.nextId, t.kind, t.fields, none⟩
    (t.numberedBelow g.grammar g.nextId) hook
  refine ⟨⟨hsketch.forest.pin _, hsketch.grammar, ?_, ?_⟩, hnext, fun id hid _ => holder id hid,
    (holder owner hlt).trans hp, rfl, rfl, rfl⟩
  · intro q hq
    obtain rfl | hq := List.mem_cons.mp hq
    · refine ⟨c, hc, hkind, hfields, ?_⟩
      have hgrammar : (g'.pin (.about g.nextId report)).grammar = g.grammar := hsketch.grammar
      rw [hgrammar, hplace, hloose]
      rfl
    · exact (hsketch.settled q (List.mem_cons_of_mem _ hq)).of_same rfl rfl
  · rw [hreports] at hperm
    refine (hsketch.pinned.append_right _).trans ?_
    rw [List.append_assoc]
    exact hperm.symm.append_left _

end Child

/-- A node is loaded and hung into a socket of its owner, or left beside it. -/
theorem serves_child (hg : g.IsForest) {owner : Nat} {p : Block} (hp : g.block? owner = some p)
    {filled : List SocketName} (hfilled : Filled p filled) {t : Tree}
    (hsketch : g.Accounts g' (t.numbered g.grammar g.nextId none))
    (hnext : g'.nextId = g.nextId + t.size)
    (holder : ∀ id < g.nextId, g'.block? id = g.block? id) {socket : SocketName} {hook : Hook}
    (hhook : hook = ⟨owner, p.kind, socket, !filled.contains socket⟩) :
    ∃ p', g.Serves (Build.link owner socket g.nextId g').2 owner p p' t.size
        (t.numbered g.grammar g.nextId (some hook)) ∧
      Filled p' (if hook.holds g.grammar t.kind then socket :: filled else filled) := by
  have hlt : owner < g.nextId := Live.lt_nextId (g := g) (by rw [Live, hp]; rfl)
  have hroot : g'.Settled ⟨g.nextId, t.kind, t.fields, none⟩ :=
    hsketch.settled _ (Tree.numbered_eq _ _ _ t ▸ List.mem_cons_self)
  obtain ⟨c, hc, hkind, -, hloose⟩ := hroot
  have hfree : (!filled.contains socket) = true ↔ p.inputs.get? socket = none := by
    have := hfilled socket
    simp only [Bool.not_eq_true', List.contains_eq_mem, decide_eq_false_iff_not, this, not_not]
  have hholds : hook.holds g.grammar t.kind = true ↔
      p.inputs.get? socket = none ∧ g'.grammar.accepts p.kind socket c.kind = true := by
    rw [hhook, Hook.holds, Bool.and_eq_true, hfree, hsketch.grammar, hkind]
  -- What the loading finds in the socket is what the numbering says is in it.
  have hlink := link_new hsketch.forest hg holder ((holder owner hlt).trans hp) hlt hc
    (Nat.le_refl _) hloose socket
  have hforest := (isForest_of_edits (Build.edits_link owner socket g.nextId) hsketch.forest).1
  by_cases h : hook.holds g.grammar t.kind = true
  · rw [if_pos (hholds.mp h)] at hlink
    rw [hlink] at hforest ⊢
    have hplace : Numbered.place g.grammar ⟨g.nextId, t.kind, t.fields, some hook⟩ =
        some (owner, socket) := by
      simp only [Numbered.place, Option.bind_some, h, if_true]
      rw [hhook]
    refine ⟨_, serves_plug hsketch hnext holder hp hlt hplace ?_ hforest, fun other => ?_⟩
    · simp [Numbered.linkReports, h]
    · rw [if_pos h, List.mem_cons, Sockets.get?_set, hfilled other]
      by_cases hs : other = socket <;> simp [hs]
  · rw [if_neg (mt hholds.mpr h)] at hlink
    rw [hlink]
    refine ⟨p, serves_pin hsketch hnext holder hp hlt ?_ ?_, ?_⟩
    · simp [Numbered.place, h]
    · simp only [Numbered.linkReports, Option.bind_some, h, Bool.false_eq_true, if_false]
      rw [hhook, hkind]
      rfl
    · rw [if_neg h]
      exact hfilled

mutual

/-- Every node of a tree is accounted for. -/
theorem accounts_sketch : ∀ (t : Tree) {g : Graph}, g.IsForest → g.grammar.BoundsOrdered →
    g.Accounts (Build.sketch t g).2 (t.numbered g.grammar g.nextId none) ∧
      (Build.sketch t g).2.nextId = g.nextId + t.size
  | .node kind fields inputs, g, hg, hbounds => by
      have hblock : (g.insert kind).block? g.nextId =
          some ⟨kind, g.grammar.defaults kind, .empty, none, none⟩ := by
        rw [block?_insert, if_pos rfl]
      obtain ⟨received, hreceived, hget⟩ :=
        refielded_loadFields hblock rfl (hbounds.receives kind fields.entries)
      have hforest := hreceived.isForest (hg.insert kind)
      have hgrammar : (Build.loadFields g.nextId fields (g.insert kind)).2.grammar = g.grammar :=
        hreceived.grammar
      have hnext : (Build.loadFields g.nextId fields (g.insert kind)).2.nextId = g.nextId + 1 :=
        hreceived.nextId.trans (nextId_insert g kind)
      have hempty : Filled ⟨kind, received, .empty, none, none⟩ [] := by simp [Filled]
      obtain ⟨p, hserves⟩ := serves_sketchInputs inputs hforest (hgrammar ▸ hbounds)
        (hreceived.self hblock) hempty
      -- The block is inserted, its fields are loaded, and then its sockets are filled.
      have hrun : (Build.sketch (.node kind fields inputs) g).2 = (Build.sketchInputs g.nextId inputs
          (Build.loadFields g.nextId fields (g.insert kind)).2).2 := rfl
      rw [hrun]
      rw [hgrammar, hnext] at hserves
      have hall := hserves.grammar.trans hgrammar
      refine ⟨⟨hserves.forest, hall, ?_, ?_⟩, ?_⟩
      · intro q hq
        obtain rfl | hq := List.mem_cons.mp hq
        · refine ⟨p, hserves.owner, hserves.kind, fun name => ?_, hserves.parent⟩
          rw [hserves.fields, hall]
          exact hget name
        · exact hserves.settled q hq
      · refine hserves.pinned.trans ?_
        rw [hreceived.pinned, hgrammar, Tree.numbered, List.flatMap_cons, ← List.append_assoc]
        have hself : Numbered.reports g.grammar ⟨g.nextId, kind, fields, none⟩ =
            reportsAt g.nextId (g.grammar.fieldReports kind fields) := by
          rw [Numbered.reports]
          exact congrArg _ (List.append_nil _)
        rw [hself]
        exact .refl _
      · rw [hserves.nextId, hnext, Tree.size]
        exact (Nat.add_right_comm _ _ _).trans (Nat.add_assoc _ _ _)

/-- Every node in the sockets of an owner is accounted for. -/
theorem serves_sketchInputs : ∀ (inputs : List (SocketName × Tree)) {g : Graph}, g.IsForest →
    g.grammar.BoundsOrdered → ∀ {owner : BlockId} {p : Block}, g.block? owner = some p →
    ∀ {filled : List SocketName}, Filled p filled →
    ∃ p', g.Serves (Build.sketchInputs owner inputs g).2 owner p p' (Tree.sizeList inputs)
      (Tree.numberedInputs g.grammar owner p.kind filled g.nextId inputs)
  | [], g, hg, _, owner, p, hp, filled, _ => by
      have hpinned : g.pinned.Perm (g.pinned ++
          (Tree.numberedInputs g.grammar owner p.kind filled g.nextId []).flatMap
            (Numbered.reports g.grammar)) := by
        rw [Tree.numberedInputs, List.flatMap_nil, List.append_nil]
      exact ⟨p, ⟨hg, rfl, by simp [Tree.numberedInputs], hpinned⟩, rfl, fun _ _ _ => rfl, hp, rfl,
        rfl, rfl⟩
  | (socket, t) :: rest, g, hg, hbounds, owner, p, hp, filled, hfilled => by
      obtain ⟨hsketch, hnext⟩ := accounts_sketch t hg hbounds
      have holder := (Build.spares_sketch (n := g.nextId) t g (Nat.le_refl _)).2
      obtain ⟨p', hchild, hfilled'⟩ := serves_child hg hp hfilled hsketch hnext holder rfl
      obtain ⟨p'', hrest⟩ := serves_sketchInputs rest hchild.forest (hchild.grammar ▸ hbounds)
        hchild.owner hfilled'
      rw [hchild.grammar, hchild.nextId, hchild.kind] at hrest
      have hrun : (Build.sketchInputs owner ((socket, t) :: rest) g).2 =
          (Build.sketchInputs owner rest
            (Build.link owner socket g.nextId (Build.sketch t g).2).2).2 := by
        rw [← Build.sketch_fst t g]
        rfl
      rw [hrun]
      -- Later nodes leave the ones of this socket alone, since these are numbered between.
      refine ⟨p'', hchild.trans hrest fun q hq => ?_⟩
      obtain ⟨hle, hlt⟩ := Tree.id_of_mem_numbered hq
      have howner : owner < g.nextId := Live.lt_nextId (g := g) (by rw [Live, hp]; rfl)
      exact ⟨hchild.nextId ▸ hlt, Nat.ne_of_gt (Nat.lt_of_lt_of_le howner hle)⟩

end

end Graph

end TaskDiagram
