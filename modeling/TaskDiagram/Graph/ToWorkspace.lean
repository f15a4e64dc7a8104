import TaskDiagram.Graph.Walk
import TaskDiagram.Workspace

/-!
# A diagram as a workspace

Every root becomes the head of a chain of nodes. Only heads carry coordinates.
-/

namespace TaskDiagram.Graph

/-- The node of a block, to a depth. -/
def node? (g : Graph) : (fuel : Nat) → BlockId → Option Node
  | 0, _ => none
  | fuel + 1, id =>
      (g.block? id).map fun b =>
        let child := fun socket => (b.inputs.get? socket).bind (node? g fuel)
        { kind := b.kind
          fields := b.fields
          x := none
          y := none
          next := child .next
          inputs := {
            object := child .object
            location := child .location
            action := child .action
            when := child .when
            body := child .body
            otherwise := child .otherwise
            next := none } }

/-- The node of a root, with its coordinates. -/
def rootNode? (g : Graph) (root : BlockId) : Option Node :=
  (g.node? g.nextId root).map fun node =>
    match (g.block? root).bind (·.position) with
    | some position => { node with x := some position.x, y := some position.y }
    | none => node

def toWorkspace (g : Graph) : Workspace := ⟨g.roots.filterMap g.rootNode?⟩

end TaskDiagram.Graph
