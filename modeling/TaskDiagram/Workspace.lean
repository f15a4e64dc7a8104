import TaskDiagram.Block.Field
import TaskDiagram.Program.Json
import TaskDiagram.Block.Socket
import TaskDiagram.Layout

/-!
# Workspaces

The form in which an editor holds a diagram: trees of nodes, each with its fields and with what is
plugged into its sockets. The node behind a node in its chain stands under `next`, apart from the
sockets. Coordinates matter at the heads of chains only.
-/

namespace TaskDiagram

structure Node where
  kind : BlockKind
  fields : FieldMap
  x : Option Float
  y : Option Float
  next : Option Node
  inputs : Sockets Node

/-- The heads of the chains of a workspace, in order. -/
structure Workspace where
  blocks : List Node

namespace Workspace

def empty : Workspace := ⟨[]⟩

end Workspace

namespace Node

/-- A node of a kind with nothing on it. -/
def bare (kind : BlockKind) : Node := ⟨kind, .empty, none, none, none, .empty⟩

/-- What is plugged in, the last node of each socket. -/
def socketsOf (entries : List (SocketName × Node)) : Sockets Node :=
  entries.foldl (fun inputs (socket, node) => inputs.set (some node) socket) .empty

/-- Reads the name of a socket where it is a key. -/
def socketKey (key : String) : Except DecodeError SocketName := Decode.name SocketName.table key

/-- Reads a node out of a value at most `depth` deep, given how its kind is read. -/
def decodeWithin (kind : Decoder BlockKind) : (depth : Nat) → Decoder Node
  | 0 => fun value => Decode.wrongType "struct WireNode" value
  | depth + 1 =>
      Fields.read "WireNode" <|
        Node.mk <$> .need "kind" kind
          <*> .defaulted "fields" .empty FieldMap.decode
          <*> .optional "x" Decode.float
          <*> .optional "y" Decode.float
          <*> .optional "next" (decodeWithin kind depth)
          <*> .defaulted "inputs" .empty fun value =>
            (Decode.map socketKey (decodeWithin kind depth) value).map socketsOf

def decode : Decoder Node := fun value =>
  decodeWithin BlockKind.decode (value.height + 1) value

/-- Reads a node inside a choice between alternatives. -/
def decodeInChoice : Decoder Node := fun value =>
  decodeWithin (Decode.variantInChoice BlockKind.table) (value.height + 1) value

end Node

/-- Puts an entry in front of others, unless there is nothing to put. -/
def consEntry (key : String) (value : Option Json) (entries : Entries) : Entries :=
  match value with
  | some value => (key, value) :: entries
  | none => entries

mutual

/-- Unset parts of a node are left out. -/
def Node.toJson : Node → Json
  | ⟨kind, fields, x, y, next, inputs⟩ =>
      let inputs := socketsToEntries inputs
      .obj (consEntry "fields" (if fields.isEmpty then none else some fields.toJson)
        (consEntry "inputs" (if inputs.isEmpty then none else some (.obj inputs))
          (("kind", kind.toJson) ::
            consEntry "next" (Node.optionToJson next)
              (consEntry "x" (x.map .float) (consEntry "y" (y.map .float) [])))))

def Node.optionToJson : Option Node → Option Json
  | none => none
  | some node => some node.toJson

/-- One entry for each occupied socket. -/
def socketsToEntries : Sockets Node → Entries
  | ⟨object, location, action, when, body, otherwise, next⟩ =>
      consEntry "ACTION" (Node.optionToJson action)
        (consEntry "DO" (Node.optionToJson body)
          (consEntry "LOCATION" (Node.optionToJson location)
            (consEntry "NEXT" (Node.optionToJson next)
              (consEntry "OBJECT" (Node.optionToJson object)
                (consEntry "OTHERWISE" (Node.optionToJson otherwise)
                  (consEntry "WHEN" (Node.optionToJson when) []))))))

end

namespace Workspace

def fields (node : Decoder Node) : Fields Workspace :=
  Workspace.mk <$> .defaulted "blocks" [] (Decode.list node)

/-- Reads a workspace; no other keys than its own are admitted. -/
def decode : Decoder Workspace := (fields Node.decode).readStrict "WireWorkspace"

def toJson (w : Workspace) : Json := .obj [("blocks", .arr (w.blocks.map Node.toJson))]

/-- The workspace of one chain. -/
def ofNode (node : Node) : Workspace := ⟨[node]⟩

end Workspace

/-- What an editor sends: a workspace, or the head of one chain. -/
inductive Payload where
  | workspace (w : Workspace)
  | node (n : Node)

namespace Payload

def toWorkspace : Payload → Workspace
  | workspace w => w
  | node n => .ofNode n

/-- Tries a workspace first, then a node. -/
def decode : Decoder Payload := fun value =>
  match (Workspace.fields Node.decodeInChoice).readStrict "WireWorkspace" value with
  | .ok w => .ok (.workspace w)
  | .error _ =>
      match Node.decodeInChoice value with
      | .ok n => .ok (.node n)
      | .error _ => .error (.noVariant "WirePayload")

end Payload

end TaskDiagram
