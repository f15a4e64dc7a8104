import TaskDiagram.Grammar.Basic
import TaskDiagram.Layout
import TaskDiagram.Warning

/-!
# Diagrams

A diagram is a forest of blocks under a grammar. Blocks live in cells indexed by their id; a cell
is never used again after its block is gone. A link is kept at both ends: the parent knows the
child in its socket, the child its parent and the socket it sits in. Blocks without a parent are
the roots, in the order in which they became such.
-/

namespace TaskDiagram

structure Block where
  kind : BlockKind
  fields : FieldMap
  inputs : Sockets BlockId
  position : Option Position
  parent : Option (BlockId × SocketName)
  deriving Inhabited

structure Graph where
  grammar : Grammar
  cells : Array (Option Block)
  roots : List BlockId
  /-- Findings recorded while the diagram was loaded. -/
  pinned : List Warning

namespace Graph

def empty (grammar : Grammar) : Graph := ⟨grammar, #[], [], []⟩

/-- The block with an id, if it is there. -/
def block? (g : Graph) (id : BlockId) : Option Block := g.cells[id]?.join

def kind? (g : Graph) (id : BlockId) : Option BlockKind := (g.block? id).map (·.kind)

/-- The id the next new block gets. -/
def nextId (g : Graph) : BlockId := g.cells.size

/-- The blocks by increasing id. -/
def blocks (g : Graph) : List (BlockId × Block) :=
  g.cells.toList.zipIdx.filterMap fun (cell, id) => cell.map (id, ·)

/-- Number of blocks. -/
def size (g : Graph) : Nat := g.blocks.length

def isEmpty (g : Graph) : Bool := g.blocks.isEmpty

/-- What is plugged into a socket. -/
def child? (g : Graph) (parent : BlockId) (socket : SocketName) : Option BlockId :=
  (g.block? parent).bind (·.inputs.get? socket)

/-- Where a block is plugged in. -/
def parent? (g : Graph) (child : BlockId) : Option (BlockId × SocketName) :=
  (g.block? child).bind (·.parent)

end Graph

namespace Block

def field? (b : Block) (name : String) : Option FieldValue := b.fields.get? name

/-- A field read as text. -/
def textField? (b : Block) (name : String) : Option String :=
  (b.field? name).bind FieldValue.asText

/-- A field read as a whole number. -/
def intField? (b : Block) (name : String) : Option Int64 :=
  (b.field? name).bind FieldValue.asInt

end Block

end TaskDiagram
