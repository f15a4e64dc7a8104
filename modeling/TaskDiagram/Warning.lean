import TaskDiagram.Block.Socket

/-!
# Warnings

Findings about a diagram. A warning never stands in the way of an edit or of saving; it belongs to
a block when there is one to point at.
-/

namespace TaskDiagram

/-- Index of a block within its diagram. -/
abbrev BlockId := Nat

inductive WarningKind where
  /-- A library block without an id, or with one the library does not have. -/
  | unresolvedReference (entity : LibraryKind) (name : Option String)
  /-- A required socket is empty. -/
  | missingInput (socket : SocketName)
  /-- A branch lacks a step it needs. -/
  | missingStep (step : StepKind)
  /-- A branch has a step of this kind already. -/
  | duplicateStep (step : StepKind)
  /-- A logic block inside a branch, which programs cannot express. -/
  | nestedControl
  /-- A chain at the top level that is no part of the program. -/
  | orphanChain (head : BlockKind)
  /-- A repetition without a count. -/
  | missingRepeatCount
  | unknownControlType (value : String)
  | unknownEventType (value : String)
  /-- A number beyond the bounds of its field was moved to the nearer bound. -/
  | fieldClamped (field : String) (given stored : Int64)
  /-- A field the grammar refuses was left out. -/
  | invalidField (field reason : String)
  /-- A link the grammar refuses was left out. -/
  | rejectedLink (parent : BlockKind) (socket : SocketName) (child : BlockKind)
  deriving DecidableEq, Repr

structure Warning where
  block : Option BlockId
  kind : WarningKind
  deriving DecidableEq, Repr

namespace WarningKind

def message : WarningKind → String
  | unresolvedReference entity _ => entity.label ++ " not defined"
  | missingInput socket => socket.name ++ " input is empty"
  | missingStep step => "branch has no " ++ step.name ++ " step"
  | duplicateStep step =>
      "more than one " ++ step.name ++ " step in one branch; only the first is saved"
  | nestedControl => "logic blocks inside DO/OTHERWISE are not saved"
  | orphanChain head => "detached chain starting at '" ++ head.name ++ "' is not saved"
  | missingRepeatCount => "repeat has no count"
  | unknownControlType value => "unknown control type '" ++ value ++ "', loaded as a plain chain"
  | unknownEventType value => "unknown event type '" ++ value ++ "'"
  | fieldClamped field given stored =>
      field ++ " " ++ toString given.toInt ++ " out of range, clamped to " ++ toString stored.toInt
  | invalidField field reason => "field '" ++ field ++ "' dropped: " ++ reason
  | rejectedLink parent socket child =>
      "'" ++ child.name ++ "' cannot connect to " ++ parent.name ++ "." ++ socket.name ++
        "; left detached"

/-- The entries that tell a finding, its type among them. -/
def entries : WarningKind → Entries
  | unresolvedReference entity name =>
      [("entity", entity.toJson), ("name", .ofOption .str name),
        ("type", .str "unresolved_reference")]
  | missingInput socket => [("socket", socket.toJson), ("type", .str "missing_input")]
  | missingStep step => [("step", step.toJson), ("type", .str "missing_step")]
  | duplicateStep step => [("step", step.toJson), ("type", .str "duplicate_step")]
  | nestedControl => [("type", .str "nested_control")]
  | orphanChain head => [("head", head.toJson), ("type", .str "orphan_chain")]
  | missingRepeatCount => [("type", .str "missing_repeat_count")]
  | unknownControlType value =>
      [("type", .str "unknown_control_type"), ("value", .str value)]
  | unknownEventType value => [("type", .str "unknown_event_type"), ("value", .str value)]
  | fieldClamped field given stored =>
      [("field", .str field), ("from", .int given.toInt), ("to", .int stored.toInt),
        ("type", .str "field_clamped")]
  | invalidField field reason =>
      [("field", .str field), ("reason", .str reason), ("type", .str "invalid_field")]
  | rejectedLink parent socket child =>
      [("child", child.toJson), ("parent", parent.toJson), ("socket", socket.toJson),
        ("type", .str "rejected_link")]

/-- The types of findings by name, each with a reader of what belongs to it. -/
def table : List (String × Fields WarningKind) :=
  let socket := Decode.variantInChoice SocketName.table
  let block := Decode.variantInChoice BlockKind.table
  let step := Decode.variantInChoice (StepKind.all.map fun step => (step.name, step))
  [("unresolved_reference",
      unresolvedReference <$> .need "entity" (Decode.variantInChoice LibraryKind.table)
        <*> .optional "name" Decode.text),
    ("missing_input", missingInput <$> .need "socket" socket),
    ("missing_step", missingStep <$> .need "step" step),
    ("duplicate_step", duplicateStep <$> .need "step" step),
    ("nested_control", .pure nestedControl),
    ("orphan_chain", orphanChain <$> .need "head" block),
    ("missing_repeat_count", .pure missingRepeatCount),
    ("unknown_control_type", unknownControlType <$> .need "value" Decode.text),
    ("unknown_event_type", unknownEventType <$> .need "value" Decode.text),
    ("field_clamped",
      fieldClamped <$> .need "field" Decode.text <*> .need "from" Decode.int64
        <*> .need "to" Decode.int64),
    ("invalid_field",
      invalidField <$> .need "field" Decode.text <*> .need "reason" Decode.text),
    ("rejected_link",
      rejectedLink <$> .need "parent" block <*> .need "socket" socket <*> .need "child" block)]

/-- The type of a finding, by name or by its place in the list of types. -/
def decodeType : Decoder (Fields WarningKind)
  | .int n =>
      if n < 0 then Decode.wrongType "variant identifier" (.int n)
      else
        match table[n.toNat]? with
        | some (_, fields) => .ok fields
        | none =>
            .error (.invalidValue (.int n)
              ("variant index 0 <= i < " ++ toString table.length))
  | .str s => Decode.name table s
  | value => Decode.wrongType "variant identifier" value

end WarningKind

namespace Warning

/-- A finding about one block. -/
def about (block : BlockId) (kind : WarningKind) : Warning := ⟨some block, kind⟩

def message (w : Warning) : String := w.kind.message

/-- The message, after the block it belongs to. -/
def display (w : Warning) : String :=
  match w.block with
  | some id => "#" ++ toString id ++ ": " ++ w.message
  | none => w.message

def toJson (w : Warning) : Json :=
  .obj (sortEntries (Json.optionalEntry "block" (fun (id : Nat) => .int id) w.block ++
    w.kind.entries))

/-- Reads the block first, then the type of the finding, then what belongs to it. -/
def decode : Decoder Warning
  | .obj entries => do
      let block ← Fields.entriesOnly (.optional "block" (Decode.natWithin 32 "u32")) entries
      let rest := entries.filter (·.1 != "block")
      let fields ← Fields.entriesOnly (.need "type" WarningKind.decodeType) rest
      let kind ← Fields.entriesOnly fields (rest.filter (·.1 != "type"))
      pure ⟨block, kind⟩
  | value => Decode.wrongType "struct Warning" value

end Warning

end TaskDiagram
