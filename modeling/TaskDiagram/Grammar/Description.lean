import TaskDiagram.Grammar.Basic

/-!
# Description of a grammar

What a grammar says, as a document value for editors.
-/

namespace TaskDiagram

def FieldType.label : FieldType → String
  | text => "text"
  | integer => "integer"
  | bounded low high => "integer " ++ toString low.toInt ++ "..=" ++ toString high.toInt

def SocketSpec.toJson (spec : SocketSpec) : Json :=
  .obj [("accepts", .arr (spec.accepts.map BlockKind.toJson)),
    ("mode", .str spec.name.mode.name),
    ("name", spec.name.toJson),
    ("required", .bool spec.required)]

def FieldSpec.toJson (spec : FieldSpec) : Json :=
  .obj (Json.optionalEntry "default" FieldValue.toJson spec.default ++
    [("name", .str spec.name), ("type", .str spec.type.label)])

def BlockSpec.toJson (kind : BlockKind) (spec : BlockSpec) : Json :=
  .obj [("category", .str kind.category.name),
    ("fields", .arr (spec.fields.map FieldSpec.toJson)),
    ("inputs", .arr (spec.sockets.map SocketSpec.toJson)),
    ("kind", kind.toJson),
    ("root", .bool spec.root)]

/-- Every known kind in order. -/
def Grammar.toJson (grammar : Grammar) : Json :=
  .arr (grammar.specs.map fun (kind, spec) => spec.toJson kind)

end TaskDiagram
