import TaskDiagram.Library.Catalog

/-!
# Keeping the library

The kept library lists the items of a kind by increasing id, at most one for each.
-/

namespace TaskDiagram

/-- Puts an item among items by increasing id, in the place of the one with its id. -/
def LibraryItem.insertById (item : LibraryItem) : List LibraryItem → List LibraryItem
  | [] => [item]
  | other :: rest =>
      if item.id < other.id then item :: other :: rest
      else if item.id = other.id then item :: rest
      else other :: insertById item rest

namespace Catalog

/-- Adds an item, or replaces the one with its id. -/
def put (catalog : Catalog) (kind : LibraryKind) (item : LibraryItem) : Catalog :=
  catalog.setItems kind (item.insertById (catalog.items kind))

/-- The library without an item, if it is there. -/
def erase? (catalog : Catalog) (kind : LibraryKind) (id : Int64) : Option Catalog :=
  if catalog.contains kind id then
    some (catalog.setItems kind ((catalog.items kind).filter (·.id ≠ id)))
  else none

end Catalog

end TaskDiagram
