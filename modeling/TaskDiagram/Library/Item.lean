import TaskDiagram.Json.Fields
import TaskDiagram.Text.Blank

/-!
# Library items

Programs refer to three kinds of things that are described elsewhere: objects that are picked,
locations where they are placed, and actions performed on the way.
-/

namespace TaskDiagram

inductive LibraryKind where
  | object
  | location
  | action
  deriving DecidableEq, Repr, Inhabited

namespace LibraryKind

def all : List LibraryKind := [.object, .location, .action]

/-- Lower-case name, as it is stored and written in documents. -/
def name : LibraryKind → String
  | object => "object"
  | location => "location"
  | action => "action"

/-- Name that opens a sentence. -/
def label : LibraryKind → String
  | object => "Object"
  | location => "Location"
  | action => "Action"

def table : List (String × LibraryKind) := all.map fun kind => (kind.name, kind)

def toJson (kind : LibraryKind) : Json := .str kind.name

def decode : Decoder LibraryKind := Decode.variant table

/-- Reads a kind as people write it: any case, singular or plural, blanks around it. On failure
the text as it was understood is handed back. -/
def ofText (s : String) : Except String LibraryKind :=
  let word := Text.lowerAscii (Text.trim s)
  match all.find? fun kind => word == kind.name || word == kind.name ++ "s" with
  | some kind => .ok kind
  | none => .error word

/-- Message for a text that names no kind. -/
def unknownMessage (word : String) : String := "unknown library kind '" ++ word ++ "'"

end LibraryKind

/-- An entry of the library. -/
structure LibraryItem where
  id : Int64
  name : String
  keywords : Option (List String)
  deriving DecidableEq, Repr, Inhabited

namespace LibraryItem

/-- Keywords as one text, the form tables show. -/
def keywordText (item : LibraryItem) : String :=
  ",".intercalate (item.keywords.getD [])

def toJson (item : LibraryItem) : Json :=
  .obj [("id", .int item.id.toInt),
    ("keywords", .ofOption .ofStrings item.keywords),
    ("name", .str item.name)]

def fields : Fields LibraryItem :=
  LibraryItem.mk <$> .need "id" Decode.int64 <*> .need "name" Decode.text
    <*> .optional "keywords" (Decode.list Decode.text)

def decode : Decoder LibraryItem := fields.read "LibraryItem"

end LibraryItem

end TaskDiagram
