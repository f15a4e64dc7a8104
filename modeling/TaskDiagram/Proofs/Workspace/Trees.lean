import TaskDiagram.Graph.OfWorkspace
import TaskDiagram.Graph.ToWorkspace
import TaskDiagram.Proofs.Graph.Trees

/-! # Nodes as trees

A node shows a tree: kinds and fields, and what is plugged in, the node behind it standing in
`next`. Coordinates are no part of it, nor whether a node behind another was named as such or as
what is in a socket. Loading a node depends on its tree alone, and the workspace of a diagram shows
the trees of the diagram.
-/

namespace TaskDiagram

mutual

/-- What a node shows, what is behind it as the last of its sockets. -/
def Node.tree : Node → Tree
  | ⟨kind, fields, _, _, next, inputs⟩ =>
      .node kind fields (socketTrees inputs ++ Tree.inSocket .next (optionTree next))

def optionTree : Option Node → Option Tree
  | none => none
  | some node => some node.tree

/-- What is plugged in, in the order of the sockets. -/
def socketTrees : Sockets Node → List (SocketName × Tree)
  | ⟨object, location, action, when, body, otherwise, next⟩ =>
      Tree.inSocket .object (optionTree object) ++ Tree.inSocket .location (optionTree location) ++
        Tree.inSocket .action (optionTree action) ++ Tree.inSocket .when (optionTree when) ++
        Tree.inSocket .body (optionTree body) ++ Tree.inSocket .otherwise (optionTree otherwise) ++
        Tree.inSocket .next (optionTree next)

end

theorem optionTree_eq_map (node : Option Node) : optionTree node = node.map Node.tree := by
  cases node <;> rfl

/-! ## Other coordinates -/

mutual

/-- The same node elsewhere, with everything that hangs on it. -/
def Node.redrawn (f : Float → Float) : Node → Node
  | ⟨kind, fields, x, y, next, inputs⟩ =>
      ⟨kind, fields, x.map f, y.map f, optionRedrawn f next, socketsRedrawn f inputs⟩

def optionRedrawn (f : Float → Float) : Option Node → Option Node
  | none => none
  | some node => some (node.redrawn f)

def socketsRedrawn (f : Float → Float) : Sockets Node → Sockets Node
  | ⟨object, location, action, when, body, otherwise, next⟩ =>
      ⟨optionRedrawn f object, optionRedrawn f location, optionRedrawn f action,
        optionRedrawn f when, optionRedrawn f body, optionRedrawn f otherwise,
        optionRedrawn f next⟩

end

mutual

/-- A node elsewhere shows the same tree. -/
theorem Node.tree_redrawn (f : Float → Float) : ∀ node : Node, (node.redrawn f).tree = node.tree
  | ⟨kind, fields, x, y, next, inputs⟩ => by
      simp only [Node.redrawn, Node.tree, optionTree_redrawn f next, socketTrees_redrawn f inputs]

theorem optionTree_redrawn (f : Float → Float) :
    ∀ node : Option Node, optionTree (optionRedrawn f node) = optionTree node
  | none => rfl
  | some node => congrArg some (Node.tree_redrawn f node)

theorem socketTrees_redrawn (f : Float → Float) :
    ∀ inputs : Sockets Node, socketTrees (socketsRedrawn f inputs) = socketTrees inputs
  | ⟨object, location, action, when, body, otherwise, next⟩ => by
      simp only [socketsRedrawn, socketTrees, optionTree_redrawn f object,
        optionTree_redrawn f location, optionTree_redrawn f action, optionTree_redrawn f when,
        optionTree_redrawn f body, optionTree_redrawn f otherwise, optionTree_redrawn f next]

end

mutual

/-- A node whose coordinates stay is the node itself. -/
theorem Node.redrawn_id : ∀ node : Node, node.redrawn id = node
  | ⟨kind, fields, x, y, next, inputs⟩ => by
      simp only [Node.redrawn, optionRedrawn_id next, socketsRedrawn_id inputs, Option.map_id, id]

theorem optionRedrawn_id : ∀ node : Option Node, optionRedrawn id node = node
  | none => rfl
  | some node => congrArg some (Node.redrawn_id node)

theorem socketsRedrawn_id : ∀ inputs : Sockets Node, socketsRedrawn id inputs = inputs
  | ⟨object, location, action, when, body, otherwise, next⟩ => by
      simp only [socketsRedrawn, optionRedrawn_id object, optionRedrawn_id location,
        optionRedrawn_id action, optionRedrawn_id when, optionRedrawn_id body,
        optionRedrawn_id otherwise, optionRedrawn_id next]

end

def Workspace.redrawn (f : Float → Float) (w : Workspace) : Workspace :=
  ⟨w.blocks.map (Node.redrawn f)⟩

/-- A workspace whose coordinates stay is the workspace itself. -/
theorem Workspace.redrawn_id (w : Workspace) : w.redrawn id = w := by
  rw [redrawn, List.map_congr_left fun node _ => node.redrawn_id, List.map_id']

/-- Coordinates are no part of what a workspace shows. -/
theorem Workspace.map_tree_redrawn (f : Float → Float) (w : Workspace) :
    (w.redrawn f).blocks.map Node.tree = w.blocks.map Node.tree := by
  rw [redrawn, List.map_map]
  exact List.map_congr_left fun node _ => node.tree_redrawn f

namespace Build

mutual

/-- The block of a tree, with those plugged into it. -/
def sketch : Tree → Build BlockId
  | .node kind fields inputs => do
      let id ← insert kind
      loadFields id fields
      sketchInputs id inputs
      return id

/-- The blocks of trees in sockets, one after the other. -/
def sketchInputs (owner : BlockId) : List (SocketName × Tree) → Build Unit
  | [] => pure ()
  | (socket, tree) :: rest => do
      link owner socket (← sketch tree)
      sketchInputs owner rest

end

/-- The block of a tree is the first that is made. -/
theorem sketch_fst (t : Tree) (g : Graph) : (sketch t g).1 = g.nextId := by
  cases t
  rfl

/-- Sockets are filled one after the other. -/
theorem sketchInputs_append (owner : BlockId) (first second : List (SocketName × Tree)) :
    sketchInputs owner (first ++ second) =
      (do sketchInputs owner first; sketchInputs owner second) := by
  induction first with
  | nil => rfl
  | cons entry rest ih =>
      obtain ⟨socket, tree⟩ := entry
      rw [List.cons_append, sketchInputs, ih]
      rfl

mutual

/-- Only what a node shows is loaded. -/
theorem node_eq_sketch : ∀ node : Node, Build.node node = sketch node.tree
  | ⟨kind, fields, x, y, next, inputs⟩ => by
      unfold Build.node Node.tree sketch
      simp only [sketchInputs_append, fun id => nodeInputs_eq_sketchInputs id inputs,
        fun id => nodeIn_eq_sketchInputs id .next next, bind_assoc]

theorem nodeIn_eq_sketchInputs (owner : BlockId) (socket : SocketName) : ∀ node : Option Node,
    nodeIn owner socket node = sketchInputs owner (Tree.inSocket socket (optionTree node))
  | none => rfl
  | some node => by
      rw [nodeIn, node_eq_sketch node]
      rfl

theorem nodeInputs_eq_sketchInputs (owner : BlockId) : ∀ inputs : Sockets Node,
    nodeInputs owner inputs = sketchInputs owner (socketTrees inputs)
  | ⟨object, location, action, when, body, otherwise, next⟩ => by
      simp only [nodeInputs, nodeIn_eq_sketchInputs owner .object object,
        nodeIn_eq_sketchInputs owner .location location,
        nodeIn_eq_sketchInputs owner .action action, nodeIn_eq_sketchInputs owner .when when,
        nodeIn_eq_sketchInputs owner .body body,
        nodeIn_eq_sketchInputs owner .otherwise otherwise,
        nodeIn_eq_sketchInputs owner .next next, socketTrees, sketchInputs_append, bind_assoc]

end

end Build

namespace Graph

/-- The node of a block shows the tree of the block. -/
theorem map_tree_node? (g : Graph) (fuel : Nat) (id : BlockId) :
    (g.node? fuel id).map Node.tree = g.tree? fuel id := by
  induction fuel generalizing id with
  | zero => rfl
  | succ fuel ih =>
      have hchild : ∀ (b : Block) (socket : SocketName),
          Tree.inSocket socket (optionTree ((b.inputs.get? socket).bind (g.node? fuel))) =
            (((b.inputs.get? socket).bind (g.tree? fuel)).map (socket, ·)).toList := by
        intro b socket
        rw [optionTree_eq_map, Option.map_bind, Tree.inSocket]
        simp only [Function.comp_def, ih]
      have hlist : ∀ b : Block,
          (b.inputs.toList.filterMap fun link => (g.tree? fuel link.2).map (link.1, ·)) =
          SocketName.all.flatMap fun socket =>
            (((b.inputs.get? socket).bind (g.tree? fuel)).map (socket, ·)).toList := by
        intro b
        rw [Sockets.toList, List.filterMap_filterMap, List.filterMap_eq_flatMap_toList]
        simp only [Option.bind_map, Option.map_bind, Function.comp_def]
      have hnone : Tree.inSocket .next (optionTree none) = [] := rfl
      rw [node?, tree?, Option.map_map]
      congr 1
      funext b
      simp only [Function.comp_apply, Node.tree, socketTrees, hchild, hlist, hnone, SocketName.all,
        List.flatMap_cons, List.flatMap_nil, List.append_assoc, List.append_nil]

/-- The node of a root shows the tree of the root, and its coordinates are no part of that. -/
theorem map_tree_rootNode? (g : Graph) (root : BlockId) :
    (g.rootNode? root).map Node.tree = g.tree? g.nextId root := by
  rw [rootNode?, Option.map_map, ← map_tree_node?]
  congr 1
  funext node
  obtain ⟨kind, fields, x, y, next, inputs⟩ := node
  dsimp only [Function.comp]
  split <;> simp only [Node.tree]

/-- The workspace of a diagram shows the trees under the roots, in their order. -/
theorem map_tree_toWorkspace (g : Graph) : g.toWorkspace.blocks.map Node.tree = g.forest := by
  rw [toWorkspace, List.map_filterMap, forest]
  congr 1
  funext root
  exact g.map_tree_rootNode? root

end Graph

end TaskDiagram
