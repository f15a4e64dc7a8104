import TaskDiagram.Graph.Basic

/-!
# Diagrams as digraphs

For drawing and comparing, a diagram is a digraph: a node for each block, labelled with its kind and
fields, and an edge for each link, labelled with its socket. Nodes are numbered in the order of the
blocks, without gaps; neither ids nor coordinates are left.
-/

namespace TaskDiagram

structure NodeLabel where
  kind : BlockKind
  fields : FieldMap

/-- Same kind, equal fields. -/
def NodeLabel.same (x y : NodeLabel) : Bool := x.kind == y.kind && x.fields.same y.fields

structure Edge (size : Nat) where
  source : Fin size
  socket : SocketName
  target : Fin size
  deriving DecidableEq

structure Digraph where
  size : Nat
  node : Fin size → NodeLabel
  edges : List (Edge size)

namespace Graph

/-- Place of a block among others. -/
def number? (blocks : List (BlockId × Block)) (id : BlockId) : Option (Fin blocks.length) :=
  blocks.findFinIdx? (·.1 == id)

/-- An edge for each link of the block with a number to another of the blocks. -/
def edgesFrom (blocks : List (BlockId × Block)) (i : Fin blocks.length) :
    List (Edge blocks.length) :=
  blocks[i].2.inputs.toList.filterMap fun (socket, child) =>
    (number? blocks child).map (⟨i, socket, ·⟩)

/-- The digraph of a diagram. -/
def digraph (g : Graph) : Digraph :=
  let blocks := g.blocks
  { size := blocks.length
    node := fun i => ⟨blocks[i].2.kind, blocks[i].2.fields⟩
    edges := (List.finRange blocks.length).flatMap (edgesFrom blocks) }

/-- Whether two diagrams are isomorphic by the verdict of a search on their digraphs. -/
def isIsomorphicBy (matching : Digraph → Digraph → Bool) (a b : Graph) : Bool :=
  matching a.digraph b.digraph

end Graph

end TaskDiagram
