import TaskDiagram.Graph.Basic

/-!
# Diagrams as forests of trees

The tree under a block shows kinds, fields and sockets, and neither ids nor coordinates. Two
diagrams are isomorphic when the trees under their roots are the same, in any order.
-/

namespace TaskDiagram

inductive Tree where
  | node (kind : BlockKind) (fields : FieldMap) (inputs : List (SocketName × Tree))

namespace Tree

mutual

/-- Number of nodes. -/
def size : Tree → Nat
  | node _ _ inputs => sizeList inputs + 1

def sizeList : List (SocketName × Tree) → Nat
  | [] => 0
  | (_, tree) :: rest => tree.size + sizeList rest

end

mutual

/-- Whether two trees agree in kinds, fields and sockets. -/
def same : Tree → Tree → Bool
  | node kind fields inputs, node kind' fields' inputs' =>
      kind == kind' && FieldMap.same fields fields' && sameList inputs inputs'

def sameList : List (SocketName × Tree) → List (SocketName × Tree) → Bool
  | [], [] => true
  | (socket, tree) :: rest, (socket', tree') :: rest' =>
      socket == socket' && tree.same tree' && sameList rest rest'
  | _, _ => false

end

/-- The list without the first tree that is the same as `t`, if there is one. -/
def removeSame? (t : Tree) : List Tree → Option (List Tree)
  | [] => none
  | u :: rest => if t.same u then some rest else (removeSame? t rest).map (u :: ·)

/-- Whether two lists hold the same trees, in any order. -/
def sameForest : List Tree → List Tree → Bool
  | [], us => us.isEmpty
  | t :: ts, us =>
      match t.removeSame? us with
      | none => false
      | some us => sameForest ts us

end Tree

namespace Graph

/-- The tree under a block, to a depth. -/
def tree? (g : Graph) : (fuel : Nat) → BlockId → Option Tree
  | 0, _ => none
  | fuel + 1, id =>
      (g.block? id).map fun b =>
        .node b.kind b.fields <| b.inputs.toList.filterMap fun (socket, child) =>
          (tree? g fuel child).map (socket, ·)

/-- The trees under the roots. -/
def forest (g : Graph) : List Tree := g.roots.filterMap (g.tree? g.nextId)

/-- Whether two diagrams are the same up to ids, coordinates and the order of roots. -/
def isIsomorphic (a b : Graph) : Bool := Tree.sameForest a.forest b.forest

end Graph

end TaskDiagram
