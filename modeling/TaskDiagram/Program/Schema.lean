import TaskDiagram.Program.Json

/-!
# Schemas of documents

A schema tells other programs, and language models, what a program or a turn of a conversation
looks like. Records are described once, under their names, and referred to from wherever they
occur.
-/

namespace TaskDiagram

namespace Schema

/-- Where the description of a record is found. -/
def referTo (record : String) : Json := .obj [("$ref", .str ("#/$defs/" ++ record))]

/-- A record that may be unset; `assumed` says whether it may also be missing. -/
def optionalRecord (record : String) (assumed : Bool) : Json :=
  .obj (("anyOf", .arr [referTo record, .obj [("type", .str "null")]]) ::
    if assumed then [("default", .null)] else [])

/-- A value of a basic type that may be unset. -/
def optionalScalar (type : String) (more : Entries) : Json :=
  .obj (more ++ [("type", .ofStrings [type, "null"])])

def optionalText : Json := optionalScalar "string" [("default", .null)]

def optionalInteger : Json :=
  optionalScalar "integer" [("default", .null), ("format", .str "int64")]

/-- Description of a record with its properties. -/
def record (description : String) (properties : Entries) : Json :=
  .obj [("description", .str description), ("properties", .obj properties),
    ("type", .str "object")]

/-- Description of a reference to a library item. -/
def reference (kind : LibraryKind) (description : String) : String × Json :=
  (Reference.recordName kind, record description
    [(kind.name, optionalText), (Reference.idKey kind, optionalInteger)])

/-- The properties of a set of steps. -/
def steps : Entries :=
  [("pick", optionalRecord (Reference.recordName .object) true),
    ("place", optionalRecord (Reference.recordName .location) true),
    ("processing", optionalRecord (Reference.recordName .action) true)]

def control : Json :=
  record ("One flow-control step and the steps it wraps.\n\n" ++
      "`control` is the next control step in sequence, owned by this node.")
    ([("control", optionalRecord "Control" true), ("control_type", optionalText),
      ("event", optionalRecord "Event" true), ("otherwise", optionalRecord "Steps" true)] ++
      steps ++ [("times", optionalInteger)])

def event : Json :=
  record "Guard of a conditional control."
    [("event_type", optionalScalar "string" []),
      ("find_object", optionalRecord (Reference.recordName .object) false)]

/-- Every record a program is made of. -/
def programRecords : Entries :=
  [reference .action "Reference to an action, used by `processing`.",
    ("Control", control),
    ("Event", event),
    reference .location "Reference to a location, used by `place`.",
    reference .object "Reference to an object, used by `pick` and `find_object`.",
    ("Program", record "The canonical task program."
      (("control", optionalRecord "Control" true) :: steps)),
    ("Steps", record "A pick/processing/place triple, as held by an `otherwise` branch." steps)]

def envelopeDescription : String :=
  "The persisted envelope: `\x7b \"program\": \x7b ... \x7d \x7d`."

/-- The property that holds the program of an envelope. -/
def envelopeProperties : Entries :=
  [("program", .obj (("default", Program.toJson .empty) ::
    [("$ref", .str "#/$defs/Program")]))]

/-- A schema: the description of one record, and all it refers to. -/
def document (title description : String) (properties records : Entries) : Json :=
  .obj [("$defs", .obj records),
    ("$schema", .str "https://json-schema.org/draft/2020-12/schema"),
    ("description", .str description), ("properties", .obj properties),
    ("title", .str title), ("type", .str "object")]

/-- The schema of a program in its envelope. -/
def program : Json :=
  document "TaskDocument" envelopeDescription envelopeProperties programRecords

/-- The schema of a turn of a conversation. -/
def turn : Json :=
  document "ConversationTurn"
    ("One turn produced by the conversational agent.\n\n" ++
      "`task` is a partial document; `finished` marks the terminal turn whose\n" ++
      "accumulated document is ready for persistence.")
    [("answer", .obj [("default", .str ""), ("description", .str "Text shown to the operator."),
        ("type", .str "string")]),
      ("finished", .obj [("default", .bool false), ("type", .str "boolean")]),
      ("task", .obj [("$ref", .str "#/$defs/TaskDocument"),
        ("default", Program.envelope (Program.toJson .empty))])]
    (programRecords ++ [("TaskDocument", record envelopeDescription envelopeProperties)])

end Schema

end TaskDiagram
