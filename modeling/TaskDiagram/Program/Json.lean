import TaskDiagram.Program.Basic

/-!
# Programs as document values

Reading accepts records in either form, the longer key names of conversations, and the older form
of a searched object as a bare name. Writing names every leaf, unset ones as `null`; the chain of
controls is written as records nested in one another.
-/

namespace TaskDiagram

namespace ControlType

def toJson (type : ControlType) : Json := .str type.text

def decode : Decoder ControlType := fun value => (Decode.text value).map ofText

end ControlType

namespace EventType

def toJson (type : EventType) : Json := .str type.text

def decode : Decoder EventType := fun value => (Decode.text value).map ofText

end EventType

namespace Reference

/-- Key of the id beside the name of what is referred to. -/
def idKey (kind : LibraryKind) : String := kind.name ++ "_id"

/-- Name of the record in messages. -/
def recordName (kind : LibraryKind) : String := kind.label ++ "Ref"

def toJson (kind : LibraryKind) (r : Reference) : Json :=
  .obj [(kind.name, .ofOption .str r.name), (idKey kind, .ofOption (.int ·.toInt) r.id)]

def decode (kind : LibraryKind) : Decoder Reference :=
  Fields.read (recordName kind) <|
    Reference.mk <$> .optional kind.name Decode.text <*> .optional (idKey kind) Decode.int64

end Reference

namespace Event

/-- A searched object: a record, or in older documents the bare name. -/
inductive Target where
  | name (s : String)
  | reference (r : Reference)

def Target.decode : Decoder Target
  | .str s => .ok (.name s)
  | value =>
      match Reference.decode .object value with
      | .ok r => .ok (.reference r)
      | .error _ => .error (.noVariant "FindObjectField")

/-- The searched object, given the id that may stand beside it. A record carries its own id. -/
def resolveTarget : Option Target → Option Int64 → Option Reference
  | some (.reference r), _ => some r
  | some (.name s), id => some ⟨some s, id⟩
  | none, some id => some ⟨none, some id⟩
  | none, none => none

def decode : Decoder Event :=
  Fields.read "RawEvent" <|
    (fun type target id => ⟨type, resolveTarget target id⟩) <$>
      .optional "event_type" EventType.decode <*>
      .optional "find_object" Target.decode <*>
      .optional "find_object_id" Decode.int64

def toJson (e : Event) : Json :=
  .obj [("event_type", .ofOption EventType.toJson e.type),
    ("find_object", .ofOption (Reference.toJson .object) e.findObject)]

end Event

namespace Steps

/-- The three steps of a record in which `longer` precedes their names as an alternative. -/
def fields (longer : Option String) : Fields Steps :=
  let aliases := fun (kind : StepKind) => longer.toList.map (· ++ kind.name)
  let step := fun (kind : StepKind) =>
    Fields.optionalAs kind.name (aliases kind) (Reference.decode kind.entity)
  Steps.mk <$> step .pick <*> step .processing <*> step .place

def decode : Decoder Steps := (fields (some "otherwise_")).read "Steps"

def entries (s : Steps) : Entries :=
  [("pick", .ofOption (Reference.toJson .object) s.pick),
    ("place", .ofOption (Reference.toJson .location) s.place),
    ("processing", .ofOption (Reference.toJson .action) s.processing)]

def toJson (s : Steps) : Json := .obj s.entries

end Steps

namespace Control

/-- A control and those behind it, in a value at most `depth` deep. -/
def decodeChain : (depth : Nat) → Decoder (List Control)
  | 0 => fun value => Decode.wrongType "struct Control" value
  | depth + 1 =>
      Fields.read "Control" <|
        (fun type times event otherwise steps next =>
          ⟨type, times, event, otherwise, steps⟩ :: next.getD []) <$>
          .optional "control_type" ControlType.decode <*>
          .optional "times" Decode.int64 <*>
          .optional "event" Event.decode <*>
          .optional "otherwise" Steps.decode <*>
          Steps.fields (some "control_") <*>
          .optional "control" (decodeChain depth)

def decode : Decoder (List Control) := fun value => decodeChain (value.height + 1) value

/-- A chain of controls as records nested in one another. -/
def chainToJson : List Control → Json
  | [] => .null
  | c :: rest =>
      .obj [("control", chainToJson rest),
        ("control_type", .ofOption ControlType.toJson c.type),
        ("event", .ofOption Event.toJson c.event),
        ("otherwise", .ofOption Steps.toJson c.otherwise),
        ("pick", .ofOption (Reference.toJson .object) c.steps.pick),
        ("place", .ofOption (Reference.toJson .location) c.steps.place),
        ("processing", .ofOption (Reference.toJson .action) c.steps.processing),
        ("times", .ofOption (.int ·.toInt) c.times)]

end Control

namespace Program

def decode : Decoder Program :=
  Fields.read "Program" <|
    (fun steps controls => ⟨steps, controls.getD []⟩) <$>
      Steps.fields none <*> .optional "control" Control.decode

def toJson (p : Program) : Json :=
  .obj [("control", Control.chainToJson p.controls),
    ("pick", .ofOption (Reference.toJson .object) p.steps.pick),
    ("place", .ofOption (Reference.toJson .location) p.steps.place),
    ("processing", .ofOption (Reference.toJson .action) p.steps.processing)]

/-- Reads the record that holds nothing but a program. -/
def decodeEnvelope : Decoder Program :=
  Fields.read "TaskDocument" (.defaulted "program" .empty decode)

/-- A program in the record that holds nothing else. -/
def envelope (program : Json) : Json := .obj [("program", program)]

end Program

end TaskDiagram
