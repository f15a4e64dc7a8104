import TaskDiagram.Graph.Walk

/-!
# Editing a diagram

Every change keeps the diagram a forest whose links the grammar accepts. A change that would not is
refused and says why; the diagram is then as it was.
-/

namespace TaskDiagram

/-- Why a change was refused. -/
inductive GraphError where
  | unknownBlock (id : BlockId)
  | unknownSocket (kind : BlockKind) (socket : SocketName)
  | invalidConnection (parent : BlockKind) (socket : SocketName) (child : BlockKind)
  | alreadyConnected (id : BlockId)
  | notConnected (id : BlockId)
  | socketOccupied (block : BlockId) (socket : SocketName)
  | cycleDetected (parent child : BlockId)
  | invalidField (block : BlockId) (cause : FieldRefusal)
  deriving DecidableEq, Repr

namespace GraphError

def mark (id : BlockId) : String := "#" ++ toString id

def message : GraphError → String
  | unknownBlock id => "block " ++ mark id ++ " does not exist"
  | unknownSocket kind socket => "'" ++ kind.name ++ "' blocks have no " ++ socket.name ++ " socket"
  | invalidConnection parent socket child =>
      "'" ++ child.name ++ "' cannot connect to " ++ parent.name ++ "." ++ socket.name
  | alreadyConnected id => "block " ++ mark id ++ " already has a parent"
  | notConnected id => "block " ++ mark id ++ " has no parent"
  | socketOccupied block socket =>
      "socket " ++ socket.name ++ " of block " ++ mark block ++ " is occupied"
  | cycleDetected parent child =>
      "connecting " ++ mark child ++ " under " ++ mark parent ++ " would create a cycle"
  | invalidField block cause => "invalid field on block " ++ mark block ++ ": " ++ cause.message

end GraphError

namespace Graph

/-- The block with an id, or the refusal of an unknown id. -/
def require (g : Graph) (id : BlockId) : Except GraphError Block :=
  match g.block? id with
  | some b => .ok b
  | none => .error (.unknownBlock id)

/-- Changes a block; nothing happens when it is not there. -/
def modify (g : Graph) (id : BlockId) (f : Block → Block) : Graph :=
  match g.block? id with
  | some b => { g with cells := g.cells.setIfInBounds id (some (f b)) }
  | none => g

/-- A new root with the default fields of its kind. Its id is `g.nextId`. -/
def insert (g : Graph) (kind : BlockKind) : Graph :=
  { g with
    cells := g.cells.push (some ⟨kind, g.grammar.defaults kind, .empty, none, none⟩)
    roots := g.roots ++ [g.nextId] }

/-- Sets a field to a value the grammar admits. -/
def setField (g : Graph) (id : BlockId) (name : String) (value : FieldValue) :
    Except GraphError Graph := do
  let b ← g.require id
  match g.grammar.checkField b.kind name value with
  | .error cause => throw (.invalidField id cause)
  | .ok () => pure (g.modify id fun b => { b with fields := b.fields.insert name value })

/-- Removes a field and returns what it held. -/
def clearField (g : Graph) (id : BlockId) (name : String) :
    Except GraphError (Option FieldValue × Graph) := do
  let b ← g.require id
  pure (b.field? name, g.modify id fun b => { b with fields := b.fields.erase name })

def setPosition (g : Graph) (id : BlockId) (position : Position) : Except GraphError Graph := do
  let _ ← g.require id
  pure (g.modify id fun b => { b with position := some position })

/-- Plugs the root `child` into a socket of `parent`. -/
def connect (g : Graph) (parent : BlockId) (socket : SocketName) (child : BlockId) :
    Except GraphError Graph := do
  let p ← g.require parent
  let c ← g.require child
  match g.grammar.socket? p.kind socket with
  | none => throw (.unknownSocket p.kind socket)
  | some spec =>
      if !spec.accepts.contains c.kind then throw (.invalidConnection p.kind socket c.kind)
      else if c.parent.isSome then throw (.alreadyConnected child)
      else if (p.inputs.get? socket).isSome then throw (.socketOccupied parent socket)
      else if g.isAncestor child parent then throw (.cycleDetected parent child)
      else
        let linked := (g.modify parent fun b =>
          { b with inputs := b.inputs.set (some child) socket }).modify child fun b =>
          { b with parent := some (parent, socket) }
        pure { linked with roots := g.roots.filter (· != child) }

/-- Unplugs a block, which becomes the last root, and returns where it was. -/
def disconnect (g : Graph) (child : BlockId) :
    Except GraphError ((BlockId × SocketName) × Graph) := do
  let c ← g.require child
  match c.parent with
  | none => throw (.notConnected child)
  | some (parent, socket) =>
      let unlinked := (g.modify parent fun b =>
        { b with inputs := b.inputs.set none socket }).modify child fun b =>
        { b with parent := none }
      pure ((parent, socket), { unlinked with roots := g.roots ++ [child] })

/-- The diagram without the blocks of a list and without findings about them. -/
def erase (g : Graph) (gone : List BlockId) : Graph :=
  { g with
    cells := g.cells.mapIdx fun id cell => if gone.contains id then none else cell
    roots := g.roots.filter (!gone.contains ·)
    pinned := g.pinned.filter fun w =>
      match w.block with
      | some id => !gone.contains id
      | none => true }

/-- Removes a block with everything below it, and returns the ids that are gone. -/
def remove (g : Graph) (id : BlockId) : Except GraphError (List BlockId × Graph) := do
  let b ← g.require id
  let detached ←
    if b.parent.isSome then do
      let (_, detached) ← g.disconnect id
      pure detached
    else pure g
  let gone := detached.descendants id
  pure (gone, detached.erase gone)

/-- Records a finding. -/
def pin (g : Graph) (w : Warning) : Graph := { g with pinned := g.pinned ++ [w] }

end Graph

end TaskDiagram
