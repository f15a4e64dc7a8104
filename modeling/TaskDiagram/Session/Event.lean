import TaskDiagram.Block.Field
import TaskDiagram.Warning

/-!
# Changes of a diagram

What a session tells those who follow its diagram.
-/

namespace TaskDiagram

inductive GraphEvent where
  | blockInserted (block : BlockId) (kind : BlockKind)
  | connected (parent : BlockId) (socket : SocketName) (child : BlockId)
  | disconnected (parent : BlockId) (socket : SocketName) (child : BlockId)
  | subtreeRemoved (removed : List BlockId)
  | fieldChanged (block : BlockId) (field : String) (value : FieldValue)
  /-- The diagram was replaced by one with so many blocks. -/
  | reloaded (blocks : Nat)
  deriving Repr

namespace GraphEvent

def idToJson (id : BlockId) : Json := .int id

def toJson : GraphEvent → Json
  | blockInserted block kind =>
      .obj [("block", idToJson block), ("kind", kind.toJson), ("type", .str "block_inserted")]
  | connected parent socket child =>
      .obj [("child", idToJson child), ("parent", idToJson parent), ("socket", socket.toJson),
        ("type", .str "connected")]
  | disconnected parent socket child =>
      .obj [("child", idToJson child), ("parent", idToJson parent), ("socket", socket.toJson),
        ("type", .str "disconnected")]
  | subtreeRemoved removed =>
      .obj [("removed", .arr (removed.map idToJson)), ("type", .str "subtree_removed")]
  | fieldChanged block field value =>
      .obj [("block", idToJson block), ("field", .str field), ("type", .str "field_changed"),
        ("value", value.toJson)]
  | reloaded blocks => .obj [("blocks", .int blocks), ("type", .str "reloaded")]

/-- One kind of change: what it is called, and a reader of what belongs to it. -/
structure Variant where
  title : String
  fields : Fields GraphEvent

/-- The kinds of changes by name. -/
def table : List (String × Variant) :=
  let id := Decode.natWithin 32 "u32"
  let socket := Decode.variantInChoice SocketName.table
  let kind := Decode.variantInChoice BlockKind.table
  [("block_inserted", ⟨"BlockInserted", blockInserted <$> .need "block" id <*> .need "kind" kind⟩),
    ("connected", ⟨"Connected",
      connected <$> .need "parent" id <*> .need "socket" socket <*> .need "child" id⟩),
    ("disconnected", ⟨"Disconnected",
      disconnected <$> .need "parent" id <*> .need "socket" socket <*> .need "child" id⟩),
    ("subtree_removed", ⟨"SubtreeRemoved",
      subtreeRemoved <$> .need "removed" (Decode.list id)⟩),
    ("field_changed", ⟨"FieldChanged",
      fieldChanged <$> .need "block" id <*> .need "field" Decode.text
        <*> .need "value" FieldValue.decode⟩),
    ("reloaded", ⟨"Reloaded", reloaded <$> .need "blocks" (Decode.natWithin 64 "usize")⟩)]

def decodeType : Decoder Variant
  | .str s => Decode.name table s
  | value => Decode.wrongType "variant identifier" value

/-- A change is an object with its kind among its entries, or an array that begins with it. -/
def decode : Decoder GraphEvent
  | .obj entries => do
      let variant ← Fields.entriesOnly (.need "type" decodeType) entries
      variant.fields.entriesOnly (entries.filter (·.1 != "type"))
  | .arr [] => .error (.missingField "type")
  | .arr (type :: rest) => do
      let variant ← decodeType type
      let count := variant.fields.count
      variant.fields.readItems ("struct variant GraphEvent::" ++ variant.title)
        (toString count ++ (if count == 1 then " element" else " elements") ++ " in sequence") rest
  | value => Decode.wrongType "internally tagged enum GraphEvent" value

end GraphEvent

end TaskDiagram
