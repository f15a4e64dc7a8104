import TaskDiagram.Library.Catalog
import TaskDiagram.Program.Basic

/-!
# Repairing the references of a program

Conversations name items without ids, and stored programs may refer to items that were renamed
since. Resolving fills in the ids of references that have a name only; refreshing, in addition,
takes over the present name of an item whose id is known.
-/

namespace TaskDiagram

namespace Reference

/-- The reference to an item. -/
def ofItem (item : LibraryItem) : Reference := ⟨some item.name, some item.id⟩

/-- Fills in the id of a reference by name. -/
def resolve (catalog : Catalog) (kind : LibraryKind) (r : Reference) : Reference :=
  match r with
  | ⟨some name, none⟩ => ((catalog.find? kind name).map ofItem).getD r
  | _ => r

/-- Fills in what the library says of the item a reference means. -/
def refresh (catalog : Catalog) (kind : LibraryKind) (r : Reference) : Reference :=
  match r.id with
  | some id => ((catalog.byId? kind id).map ofItem).getD r
  | none => r.resolve catalog kind

end Reference

/-- One function on every reference of an event. -/
def Event.mapReferences (f : LibraryKind → Reference → Reference) (e : Event) : Event :=
  { e with findObject := e.findObject.map (f .object) }

/-- One function on every reference of a control. -/
def Control.mapReferences (f : LibraryKind → Reference → Reference) (c : Control) : Control :=
  { c with
    event := c.event.map (·.mapReferences f)
    otherwise := c.otherwise.map (·.map f)
    steps := c.steps.map f }

namespace Program

/-- One function on every reference of a program. -/
def mapReferences (f : LibraryKind → Reference → Reference) (p : Program) : Program where
  steps := p.steps.map f
  controls := p.controls.map (·.mapReferences f)

/-- Gives every reference without an id the id of the item its name refers to. -/
def resolve (catalog : Catalog) (p : Program) : Program :=
  p.mapReferences (Reference.resolve catalog)

/-- Resolves, and renames references whose item goes by another name. -/
def refresh (catalog : Catalog) (p : Program) : Program :=
  p.mapReferences (Reference.refresh catalog)

end Program

end TaskDiagram
