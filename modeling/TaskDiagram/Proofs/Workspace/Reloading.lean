import TaskDiagram.Proofs.Workspace.Fields
import TaskDiagram.Proofs.Workspace.Frames

/-! # Reloading trees a grammar accepts

A tree fits a grammar when the grammar admits its fields and accepts each of its links, and no
socket is filled twice. Loading makes of such a tree a root that shows it: nothing is changed,
nothing is left beside it and nothing is reported. All trees of edited diagrams fit.
-/

namespace TaskDiagram

namespace Tree

mutual

/-- The grammar admits the fields and accepts what is plugged in, each socket once and in order. -/
def Fits (grammar : Grammar) : Tree → Prop
  | node kind fields inputs => grammar.Admits kind fields ∧ FitInputs grammar kind inputs

def FitInputs (grammar : Grammar) (kind : BlockKind) : List (SocketName × Tree) → Prop
  | [] => True
  | (socket, tree) :: rest =>
      grammar.accepts kind socket tree.kind = true ∧ tree.Fits grammar ∧
        (∀ entry ∈ rest, socket.index < entry.1.index) ∧ FitInputs grammar kind rest

end

end Tree

namespace Graph

variable {g g' g'' : Graph}

/-! ## Other fields on a block -/

section Refielded

variable {id : BlockId} {fields : FieldMap} {found : List Warning}

/-- Other fields on a block change its own face only. -/
theorem Refielded.face? (h : g.Refielded g' id fields found) (other : BlockId) :
    g'.face? other = (g.face? other).map fun face =>
      if other = id then { face with fields := fields } else face := by
  rw [Graph.face?, h.block?, Graph.face?, Option.map_map, Option.map_map]
  congr 1
  funext b
  dsimp only [Function.comp, Block.face]
  split <;> rfl

theorem Refielded.parent? (h : g.Refielded g' id fields found) (other : BlockId) :
    g'.parent? other = g.parent? other := by
  rw [Graph.parent?, h.block?, Option.bind_map, Graph.parent?]
  congr 1
  funext b
  dsimp only [Function.comp]
  split <;> rfl

/-- Other fields on a block leave the trees as they are. -/
theorem Refielded.isForest (h : g.Refielded g' id fields found) (hg : g.IsForest) :
    g'.IsForest := by
  refine hg.of_same_links h.grammar (fun other => ?_) (fun other socket => ?_) h.parent? h.roots
  · rw [kind?_eq_face?, kind?_eq_face?, h.face?, Option.map_map]
    congr 1
    funext face
    dsimp only [Function.comp]
    split <;> rfl
  · rw [child?_eq_face?, child?_eq_face?, h.face?, Option.bind_map]
    congr 1
    funext face
    dsimp only [Function.comp]
    split <;> rfl

/-- Other fields on a block, without a report, touch that block alone. -/
theorem Refielded.extends (h : g.Refielded g' id fields []) (hg : g.IsForest) :
    g.Extends g' (· = id) [] where
  forest := h.isForest hg
  grammar := h.grammar
  nextId_le := Nat.le_of_eq h.nextId.symm
  face? other _ hother := by
    rw [h.face?]
    simp [hother]
  pinned := by rw [h.pinned, List.append_nil, List.append_nil]

end Refielded

/-! ## One more root -/

/-- `g'` is `g` with one more root, which shows a tree; what is plugged into it came later. -/
structure Raised (g g' : Graph) (t : Tree) : Prop extends Extends g g' Untouched [] where
  lt_nextId : g.nextId < g'.nextId
  shown : ∃ links : Sockets BlockId, g'.face? g.nextId = some ⟨t.kind, t.fields, links⟩ ∧
    g'.ShowsInputs (g.nextId + 1) g'.nextId t.inputs links.toList
  roots : g'.roots = g.roots ++ [g.nextId]

namespace Raised

variable {t u : Tree}

/-- The new root is below nothing and shows its tree. -/
theorem shows (h : g.Raised g' t) : g'.Shows g.nextId g'.nextId t g.nextId := by
  obtain ⟨kind, fields, inputs⟩ := t
  obtain ⟨links, hface, hinputs⟩ := h.shown
  exact .node (Nat.le_refl _) h.lt_nextId hface
    (hinputs.frame (Nat.le_succ _) (Nat.le_refl _) fun _ _ _ => rfl)

/-- A new block with the fields of a node. -/
theorem new (hg : g.IsForest) {kind : BlockKind} {fields : FieldMap}
    (hfields : g.grammar.Admits kind fields) :
    g.Raised (Build.loadFields g.nextId fields (g.insert kind)).2 (.node kind fields []) := by
  have hblock : (g.insert kind).block? g.nextId =
      some ⟨kind, g.grammar.defaults kind, .empty, none, none⟩ := by
    rw [block?_insert, if_pos rfl]
  obtain ⟨received, hreceived, hget⟩ := refielded_loadFields hblock rfl hfields.receives
  obtain rfl : received = fields :=
    TextMap.ext_get? fun name => (hget name).trans (hfields.received? name)
  have hreports : (g.insert kind).grammar.fieldReports kind received = [] := hfields.fieldReports
  rw [hreports] at hreceived
  have hextends := hreceived.extends (hg.insert kind)
  refine ⟨(Extends.insert hg kind).trans hextends ?_, ?_, ⟨.empty, ?_, .nil⟩, hreceived.roots⟩
  · exact fun id hid hor => hor.elim False.elim fun heq => Nat.ne_of_lt hid heq
  · rw [hreceived.nextId, nextId_insert]
    exact Nat.lt_succ_self _
  · rw [hreceived.face?, Graph.face?, hblock]
    simp [Block.face, Tree.kind, Tree.fields]

/-- A root that is plugged into a free socket of the block before it. -/
theorem fill (h : g.Raised g' t) (hu : g'.Raised g'' u) {socket : SocketName}
    (hopen : t.OpenAt socket) (haccepts : g.grammar.accepts t.kind socket u.kind = true) :
    g.Raised (Build.link g.nextId socket g'.nextId g'').2 (t.plug socket (some u)) := by
  obtain ⟨links, hface, hinputs⟩ := h.shown
  have hface' : g''.face? g.nextId = some ⟨t.kind, t.fields, links⟩ :=
    (hu.face?_old h.lt_nextId).trans hface
  have hfree : ∀ other, socket.index ≤ other.index → links.get? other = none :=
    fun other hother => hinputs.get?_eq_none fun entry hentry heq =>
      Nat.not_lt_of_le hother (heq ▸ hopen entry hentry)
  have hplug : g''.Pluggable g.nextId socket g'.nextId :=
    pluggable_of_shows hu.forest hface' (hfree socket (Nat.le_refl _)) hu.shows
      (hu.roots ▸ List.mem_append_right _ List.mem_cons_self) h.lt_nextId
      ((hu.grammar.trans h.grammar) ▸ haccepts)
  rw [link_eq_plug hplug]
  have hext := Extends.plug hu.forest hplug
  have hnext : (g''.plug g.nextId socket g'.nextId).nextId = g''.nextId :=
    nextId_relink _ _ _ _ _ _ _
  -- Beyond the block itself nothing shows anything new.
  have hafter : ∀ other : Nat, g.nextId + 1 ≤ other → other < g''.nextId →
      (g''.plug g.nextId socket g'.nextId).face? other = g''.face? other :=
    fun other h1 h2 => hext.face? other h2 (Nat.ne_of_gt h1)
  have hold : ∀ id : Nat, id < g'.nextId → Untouched id ∨ id = g.nextId → id = g.nextId :=
    fun id _ hor => hor.elim False.elim fun heq => heq
  have hall : g.Extends (g''.plug g.nextId socket g'.nextId) Untouched [] :=
    h.toExtends.trans (hu.toExtends.trans hext hold)
      fun id hid hor => hor.elim False.elim fun heq => Nat.ne_of_lt hid heq
  refine ⟨hall, ?_, ⟨links.set (some g'.nextId) socket, ?_, ?_⟩, ?_⟩
  · rw [hnext]
    exact h.lt_nextId.trans hu.lt_nextId
  · rw [face?_plug, hface']
    rfl
  · rw [hnext, Sockets.toList_set links hfree]
    refine ShowsInputs.append ?_ (.cons ?_ .nil)
    · refine hinputs.frame (Nat.le_refl _) hu.nextId_le fun other h1 h2 => ?_
      rw [hafter other h1 (h2.trans hu.lt_nextId), hu.face?_old h2]
    · refine hu.shows.frame h.lt_nextId (Nat.le_refl _) fun other h1 h2 => ?_
      exact hafter other (Nat.le_trans h.lt_nextId h1) h2
  · have hnodup := hu.forest.roots_nodup
    rw [hu.roots] at hnodup
    change g''.roots.filter _ = _
    rw [hu.roots, filter_ne_of_nodup hnodup, List.append_nil, h.roots]

end Raised

/-! ## Fitting trees -/

mutual

/-- A tree that fits is shown by the root that is made of it. -/
theorem raised_sketch : ∀ (t : Tree) {g : Graph}, g.IsForest → t.Fits g.grammar →
    g.Raised (Build.sketch t g).2 t
  | .node _ _ inputs, _, hg, ⟨hfields, hinputs⟩ =>
      raised_sketchInputs inputs (Raised.new hg hfields) hinputs fun _ _ => nofun

/-- What is plugged in last stands behind all that was there. -/
theorem raised_sketchInputs : ∀ (inputs : List (SocketName × Tree)) {g g' : Graph} {t : Tree},
    g.Raised g' t → Tree.FitInputs g.grammar t.kind inputs →
    (∀ entry ∈ inputs, t.OpenAt entry.1) →
    g.Raised (Build.sketchInputs g.nextId inputs g').2 (.node t.kind t.fields (t.inputs ++ inputs))
  | [], _, _, .node _ _ before, h, _, _ => by
      rw [List.append_nil]
      exact h
  | (socket, u) :: rest, g, g', t, h, ⟨haccepts, hfits, hbefore, hrest⟩, hopen => by
      have hu := raised_sketch u h.forest (h.grammar ▸ hfits)
      have hfill := h.fill hu (hopen _ List.mem_cons_self) haccepts
      have hmore := raised_sketchInputs rest hfill hrest fun entry hentry =>
        (hopen entry (List.mem_cons_of_mem _ hentry)).plug (hbefore entry hentry) (some u)
      have hrun : Build.sketchInputs g.nextId ((socket, u) :: rest) g' =
          Build.sketchInputs g.nextId rest
            (Build.link g.nextId socket g'.nextId (Build.sketch u g').2).2 := by
        rw [← Build.sketch_fst u g']
        rfl
      rw [hrun]
      simpa [Tree.plug, Tree.inSocket, Tree.kind, Tree.fields, Tree.inputs] using hmore

end

/-! ## Workspaces -/

/-- The block of a node is there, and where the node is if that has coordinates. -/
structure StandsAt (g : Graph) (node : Node) (id : BlockId) : Prop where
  live : g.Live id
  position : ∀ x y, node.x = some x → node.y = some y → g.position? id = some ⟨x, y⟩

/-- `g'` is `g` with one more root for each node, which shows its tree and stands where it does. -/
structure Planted (g g' : Graph) (nodes : List Node) : Prop extends Extends g g' Untouched [] where
  older : ∀ id < g.nextId, g'.block? id = g.block? id
  roots : ∃ ids, g'.roots = g.roots ++ ids ∧
    List.Forall₂ (g'.Shows g.nextId g'.nextId) (nodes.map Node.tree) ids ∧
    List.Forall₂ g'.StandsAt nodes ids

/-- Nodes that are planted one after the other are planted together. -/
theorem Planted.trans {nodes nodes' : List Node} (h : g.Planted g' nodes)
    (h' : g'.Planted g'' nodes') : g.Planted g'' (nodes ++ nodes') := by
  obtain ⟨ids, hroots, hshows, hstand⟩ := h.roots
  obtain ⟨ids', hroots', hshows', hstand'⟩ := h'.roots
  have hextends : g.Extends g'' Untouched [] :=
    h.toExtends.trans h'.toExtends fun _ _ hor => hor.elim id id
  refine ⟨hextends, fun id hid => ?_, ids ++ ids', ?_, ?_, List.rel_append ?_ hstand'⟩
  · exact (h'.older id (Nat.lt_of_lt_of_le hid h.nextId_le)).trans (h.older id hid)
  · rw [hroots', hroots, List.append_assoc]
  · rw [List.map_append]
    apply List.rel_append
    · exact forall₂_frame (Nat.le_refl _) h'.nextId_le (fun id _ hid => h'.face?_old hid) hshows
    · exact forall₂_widen hshows' h.nextId_le (Nat.le_refl _)
  · -- The blocks that were planted first are not moved any more.
    refine hstand.imp fun node id hnode => ?_
    have hsame := h'.older id hnode.live.lt_nextId
    refine ⟨?_, fun x y hx hy => ?_⟩
    · rw [Live, hsame]
      exact hnode.live
    · rw [position?, hsame]
      exact hnode.position x y hx hy

/-- The root of one node. -/
theorem planted_node (hg : g.IsForest) (node : Node) (hfits : node.tree.Fits g.grammar) :
    g.Planted ((do Build.place (← Build.node node) node.x node.y : Build Unit) g).2 [node] := by
  have holder := (Build.spares_root (n := g.nextId) node g (Nat.le_refl _)).2
  have hrun : ((do Build.place (← Build.node node) node.x node.y : Build Unit) g).2 =
      (Build.place g.nextId node.x node.y (Build.sketch node.tree g).2).2 := by
    rw [Build.node_eq_sketch, ← Build.sketch_fst node.tree g]
    rfl
  rw [hrun] at holder ⊢
  have hraised := raised_sketch node.tree hg hfits
  have hmoved := moved_place (Build.sketch node.tree g).2 g.nextId node.x node.y
  refine ⟨hraised.toExtends.trans (hmoved.extends hraised.forest) fun _ _ hor => hor.elim id id,
    holder, [g.nextId], hmoved.roots.trans hraised.roots, .cons ?_ .nil, .cons ?_ .nil⟩
  · rw [hmoved.nextId]
    exact hraised.shows.frame (Nat.le_refl _) (Nat.le_refl _) fun id _ _ => hmoved.face? id
  · refine ⟨hmoved.live_iff.mpr hraised.shows.live, fun x y hx hy => ?_⟩
    rw [hx, hy]
    exact position?_place hraised.shows.live x y

/-- Trees that fit are planted one after the other. -/
theorem planted_workspace (nodes : List Node) {g : Graph} (hg : g.IsForest)
    (hfits : ∀ node ∈ nodes, node.tree.Fits g.grammar) :
    g.Planted (Build.workspace ⟨nodes⟩ g).2 nodes := by
  induction nodes generalizing g with
  | nil => exact ⟨.refl hg _, fun _ _ => rfl, [], (List.append_nil _).symm, .nil, .nil⟩
  | cons node rest ih =>
      have hfirst := planted_node hg node (hfits node List.mem_cons_self)
      exact hfirst.trans (ih hfirst.forest fun other hother =>
        hfirst.grammar ▸ hfits other (List.mem_cons_of_mem _ hother))

/-- A workspace of trees that fit is loaded as it is. -/
theorem planted_ofWorkspace (grammar : Grammar) (layout : Layout) (w : Workspace)
    (hfits : ∀ node ∈ w.blocks, node.tree.Fits grammar) :
    (empty grammar).Planted (ofWorkspace grammar layout w) w.blocks := by
  have hplanted := planted_workspace w.blocks (isForest_empty grammar) hfits
  obtain ⟨ids, hroots, hshows, hstand⟩ := hplanted.roots
  have hmoved := moved_placeUnplaced layout 0 (Build.workspace w (empty grammar)).2.roots
    (Build.workspace w (empty grammar)).2
  refine ⟨hplanted.toExtends.trans (hmoved.extends hplanted.forest) fun _ _ hor => hor.elim id id,
    nofun, ids, hmoved.roots.trans hroots, ?_, ?_⟩
  · exact forall₂_frame (Nat.le_refl _) (Nat.le_of_eq hmoved.nextId.symm)
      (fun id _ _ => hmoved.face? id) hshows
  · refine hstand.imp fun node id hnode => ⟨hmoved.live_iff.mpr hnode.live, fun x y hx hy => ?_⟩
    exact position?_placeUnplaced layout 0 _ (hnode.position x y hx hy)

end Graph

end TaskDiagram
