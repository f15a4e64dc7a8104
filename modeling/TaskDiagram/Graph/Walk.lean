import TaskDiagram.Graph.Basic

/-!
# Walks through a diagram

Walks follow links at most as often as there are cells. In a forest that is no restriction: a walk
that went on longer would have to meet a block twice.
-/

namespace TaskDiagram.Graph

/-- A block and those behind it in its chain. -/
def chainFrom (g : Graph) : (fuel : Nat) → BlockId → List BlockId
  | 0, _ => []
  | fuel + 1, id =>
      match g.block? id with
      | none => []
      | some b =>
          id :: match b.inputs.next with
            | none => []
            | some next => chainFrom g fuel next

/-- A block followed by every block reached through `next`. -/
def chain (g : Graph) (head : BlockId) : List BlockId := g.chainFrom g.nextId head

/-- The chain in a socket; empty when the socket is. -/
def branch (g : Graph) (parent : BlockId) (socket : SocketName) : List BlockId :=
  match g.child? parent socket with
  | none => []
  | some head => g.chain head

/-- A block and everything below it, to a depth. -/
def below (g : Graph) : (fuel : Nat) → BlockId → List BlockId
  | 0, _ => []
  | fuel + 1, id =>
      match g.block? id with
      | none => []
      | some b => id :: b.inputs.toList.flatMap fun (_, child) => below g fuel child

/-- A block and everything below it: each block before what is plugged into it, sockets in their
order. -/
def descendants (g : Graph) (id : BlockId) : List BlockId := g.below g.nextId id

/-- Whether `ancestor` is met on the way up from a block, itself included. -/
def climbsTo (g : Graph) (ancestor : BlockId) : (fuel : Nat) → BlockId → Bool
  | 0, _ => false
  | fuel + 1, id =>
      id == ancestor ||
        match g.parent? id with
        | none => false
        | some (parent, _) => climbsTo g ancestor fuel parent

/-- Whether `ancestor` is the block itself or lies between it and its root. -/
def isAncestor (g : Graph) (ancestor id : BlockId) : Bool :=
  g.climbsTo ancestor (g.nextId + 1) id

end TaskDiagram.Graph
