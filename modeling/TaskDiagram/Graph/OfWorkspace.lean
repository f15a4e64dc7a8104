import TaskDiagram.Graph.OfProgram
import TaskDiagram.Workspace

/-!
# Loading a workspace into a diagram

Every node becomes one block. The fields of a node take the place of the default fields of its
kind; a number beyond its bounds is moved to the nearer one. Links and fields the grammar refuses
are left out and reported.
-/

namespace TaskDiagram

namespace Build

/-- Sets a field from a workspace. -/
def loadField (id : BlockId) (name : String) (value : FieldValue) : Build Unit := do
  let g ← get
  match (g.kind? id).map fun kind => g.grammar.checkField kind name value with
  | some (.error (.outOfRange _ low high n)) =>
      let clamped := if n < low then low else if high < n then high else n
      pin (.about id (.fieldClamped name n clamped))
      set id name (.int clamped)
  | _ => set id name value

/-- The fields of a node instead of the default ones. -/
def loadFields (id : BlockId) (fields : FieldMap) : Build Unit := do
  let g ← get
  let defaults := ((g.block? id).map (·.fields.entries)).getD []
  (defaults.filter fun (name, _) => (fields.get? name).isNone).forM fun (name, _) =>
    clear id name
  fields.entries.forM fun (name, value) => loadField id name value

mutual

/-- The block of a node, with those plugged into it. -/
def node : Node → Build BlockId
  | ⟨kind, fields, _, _, next, inputs⟩ => do
      let id ← insert kind
      loadFields id fields
      nodeInputs id inputs
      nodeIn id .next next
      return id

/-- The block of a node in a socket. -/
def nodeIn (owner : BlockId) (socket : SocketName) : Option Node → Build Unit
  | none => pure ()
  | some child => do link owner socket (← node child)

/-- The blocks of the nodes in all sockets. -/
def nodeInputs (owner : BlockId) : Sockets Node → Build Unit
  | ⟨object, location, action, when, body, otherwise, next⟩ => do
      nodeIn owner .object object
      nodeIn owner .location location
      nodeIn owner .action action
      nodeIn owner .when when
      nodeIn owner .body body
      nodeIn owner .otherwise otherwise
      nodeIn owner .next next

end

/-- Puts a block where its node stands, if the node has both coordinates. -/
def place (id : BlockId) (x y : Option Float) : Build Unit := fun g =>
  match x, y with
  | some x, some y => ((), g.modify id fun b => { b with position := some ⟨x, y⟩ })
  | _, _ => ((), g)

def workspace (w : Workspace) : Build Unit :=
  w.blocks.forM fun root => do
    let id ← node root
    place id root.x root.y

end Build

namespace Graph

/-- Puts the roots without coordinates where their row is, beginning with the row `index`. -/
def placeUnplaced (layout : Layout) : (index : Nat) → List BlockId → Graph → Graph
  | _, [], g => g
  | index, root :: rest, g =>
      placeUnplaced layout (index + 1) rest
        (g.modify root fun b => { b with position := b.position.or (layout.position index) })

/-- The diagram of a workspace. -/
def ofWorkspace (grammar : Grammar) (layout : Layout) (w : Workspace) : Graph :=
  let g := (Build.workspace w (empty grammar)).2
  placeUnplaced layout 0 g.roots g

end Graph

end TaskDiagram
