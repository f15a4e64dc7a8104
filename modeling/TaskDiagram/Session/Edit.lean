import TaskDiagram.Graph.OfWorkspace
import TaskDiagram.Graph.ToProgram
import TaskDiagram.Graph.ToWorkspace
import TaskDiagram.Graph.Validation
import TaskDiagram.Session.Bus

/-!
# Editing sessions

A session owns one diagram and publishes every change of it. A change that is refused is not
published and leaves the diagram as it was.
-/

namespace TaskDiagram

structure EditSession where
  graph : Graph
  layout : Layout
  events : Bus

namespace EditSession

/-- A session on an empty diagram. -/
def new (grammar : Grammar) (layout : Layout) (events : Bus) : EditSession :=
  ⟨.empty grammar, layout, events⟩

def publish (s : EditSession) (e : GraphEvent) : EditSession :=
  { s with events := s.events.publish e }

/-- Another diagram in place of the present one. -/
def replace (s : EditSession) (g : Graph) : EditSession :=
  { s with graph := g }.publish (.reloaded g.size)

def load (s : EditSession) (p : Program) : EditSession :=
  s.replace (.ofProgram s.graph.grammar s.layout p)

def loadWorkspace (s : EditSession) (w : Workspace) : EditSession :=
  s.replace (.ofWorkspace s.graph.grammar s.layout w)

/-- A session on the diagram of a program. -/
def openProgram (grammar : Grammar) (layout : Layout) (events : Bus) (p : Program) : EditSession :=
  (new grammar layout events).load p

/-- The new block has the id `s.graph.nextId`. -/
def insert (s : EditSession) (kind : BlockKind) : EditSession :=
  { s with graph := s.graph.insert kind }.publish (.blockInserted s.graph.nextId kind)

def connect (s : EditSession) (parent : BlockId) (socket : SocketName) (child : BlockId) :
    Except GraphError EditSession := do
  let g ← s.graph.connect parent socket child
  return { s with graph := g }.publish (.connected parent socket child)

def disconnect (s : EditSession) (child : BlockId) : Except GraphError EditSession := do
  let ((parent, socket), g) ← s.graph.disconnect child
  return { s with graph := g }.publish (.disconnected parent socket child)

def remove (s : EditSession) (id : BlockId) : Except GraphError (List BlockId × EditSession) := do
  let (removed, g) ← s.graph.remove id
  return (removed, { s with graph := g }.publish (.subtreeRemoved removed))

def setField (s : EditSession) (id : BlockId) (field : String) (value : FieldValue) :
    Except GraphError EditSession := do
  let g ← s.graph.setField id field value
  return { s with graph := g }.publish (.fieldChanged id field value)

def warnings (s : EditSession) (catalog : Option Catalog) : List Warning :=
  s.graph.validate catalog

def save (s : EditSession) : Program := s.graph.toProgram

def toWorkspace (s : EditSession) : Workspace := s.graph.toWorkspace

/-- One line about the session. -/
def summary (s : EditSession) : String :=
  "EditSession \x7b blocks: " ++ toString s.graph.size ++ ", roots: " ++
    toString s.graph.roots.length ++ ", events: " ++ s.events.summary ++ " \x7d"

end EditSession

end TaskDiagram
