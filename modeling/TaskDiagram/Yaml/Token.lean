import TaskDiagram.Yaml.Cursor

/-!
# Tokens of a YAML text

What a text is cut into before its structure is looked at.
-/

namespace TaskDiagram.Yaml

/-- A tag as written: the handle and the bytes that follow it. -/
structure TagName where
  handle : String
  suffix : List Nat
  deriving DecidableEq, Repr

inductive Token where
  | versionDirective (major minor : Nat)
  | tagDirective (handle : String) (start : List Nat)
  | documentStart
  | documentEnd
  | blockSequenceStart
  | blockMappingStart
  | blockEnd
  | flowSequenceStart
  | flowSequenceEnd
  | flowMappingStart
  | flowMappingEnd
  | flowEntry
  | blockEntry
  | key
  | value
  | alias_ (name : String)
  | anchor (name : String)
  | tag (name : TagName)
  /-- Text; `plain` when it is written without quotes and not as a block. -/
  | scalar (text : String) (plain : Bool)
  deriving DecidableEq, Repr

end TaskDiagram.Yaml
