import TaskDiagram.Library.Item
import TaskDiagram.Text.Lowercase

/-!
# Looking up library items

A catalog is the library at one moment. A name finds the first item that bears it, letter case
aside; failing that, the first item that lists it among its keywords.
-/

namespace TaskDiagram

structure Catalog where
  objects : List LibraryItem
  locations : List LibraryItem
  actions : List LibraryItem
  deriving DecidableEq, Repr, Inhabited

namespace Catalog

def empty : Catalog := ⟨[], [], []⟩

def items (catalog : Catalog) : LibraryKind → List LibraryItem
  | .object => catalog.objects
  | .location => catalog.locations
  | .action => catalog.actions

/-- Replaces the items of one kind. -/
def setItems (catalog : Catalog) (kind : LibraryKind) (items : List LibraryItem) : Catalog :=
  match kind with
  | .object => { catalog with objects := items }
  | .location => { catalog with locations := items }
  | .action => { catalog with actions := items }

/-- Adds an item behind those of its kind. -/
def insert (catalog : Catalog) (kind : LibraryKind) (item : LibraryItem) : Catalog :=
  catalog.setItems kind (catalog.items kind ++ [item])

def byId? (catalog : Catalog) (kind : LibraryKind) (id : Int64) : Option LibraryItem :=
  (catalog.items kind).find? (·.id == id)

def contains (catalog : Catalog) (kind : LibraryKind) (id : Int64) : Bool :=
  (catalog.byId? kind id).isSome

/-- Whether an item bears the name, given in lower case. -/
def bears (wanted : String) (item : LibraryItem) : Bool :=
  Text.lowercase item.name == wanted

/-- Whether an item lists the name, given in lower case, among its keywords. -/
def lists (wanted : String) (item : LibraryItem) : Bool :=
  (item.keywords.getD []).any fun keyword => Text.lowercase (Text.trim keyword) == wanted

/-- The item a typed or spoken name refers to. -/
def find? (catalog : Catalog) (kind : LibraryKind) (name : String) : Option LibraryItem :=
  let wanted := Text.lowercase (Text.trim name)
  let items := catalog.items kind
  (items.find? (bears wanted)).or (items.find? (lists wanted))

end Catalog

/-- What is known about a name: the item it refers to, or the name alone. -/
structure Resolution where
  id : Option Int64
  name : String
  keywords : Option (List String)
  deriving DecidableEq, Repr

def Catalog.resolve (catalog : Catalog) (kind : LibraryKind) (name : String) : Resolution :=
  match catalog.find? kind name with
  | some item => ⟨some item.id, item.name, item.keywords⟩
  | none => ⟨none, name, none⟩

end TaskDiagram
