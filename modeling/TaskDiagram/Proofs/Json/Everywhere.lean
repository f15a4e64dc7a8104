import TaskDiagram.Json.Basic

/-! # Properties of everything inside a value

A property of values, which may depend on the key a value stands under, of a value and of all that
is inside it.
-/

namespace TaskDiagram

namespace Json

variable (P : Option String → Json → Prop)

mutual

/-- The value and every value inside it has the property, which may depend on the key a value
stands under. -/
def Everywhere (key : Option String) : Json → Prop
  | .arr items => P key (.arr items) ∧ EveryItem items
  | .obj entries => P key (.obj entries) ∧ EveryEntry entries
  | .null => P key .null
  | .bool b => P key (.bool b)
  | .int n => P key (.int n)
  | .float x => P key (.float x)
  | .str s => P key (.str s)

def EveryItem : List Json → Prop
  | [] => True
  | item :: rest => item.Everywhere none ∧ EveryItem rest

def EveryEntry : List (String × Json) → Prop
  | [] => True
  | (key, value) :: rest => value.Everywhere (some key) ∧ EveryEntry rest

end

variable {P}

mutual

/-- A weaker property holds everywhere too. -/
theorem Everywhere.imp {Q : Option String → Json → Prop} (h : ∀ key v, P key v → Q key v) :
    ∀ {key : Option String} {v : Json}, Everywhere P key v → Everywhere Q key v
  | key, .arr _, ⟨hself, hitems⟩ => ⟨h key _ hself, EveryItem.imp h hitems⟩
  | key, .obj _, ⟨hself, hentries⟩ => ⟨h key _ hself, EveryEntry.imp h hentries⟩
  | key, .null, hself => h key .null hself
  | key, .bool b, hself => h key (.bool b) hself
  | key, .int n, hself => h key (.int n) hself
  | key, .float x, hself => h key (.float x) hself
  | key, .str s, hself => h key (.str s) hself

theorem EveryItem.imp {Q : Option String → Json → Prop} (h : ∀ key v, P key v → Q key v) :
    ∀ {items : List Json}, EveryItem P items → EveryItem Q items
  | [], _ => trivial
  | _ :: _, ⟨hitem, hrest⟩ => ⟨Everywhere.imp h hitem, EveryItem.imp h hrest⟩

theorem EveryEntry.imp {Q : Option String → Json → Prop} (h : ∀ key v, P key v → Q key v) :
    ∀ {entries : List (String × Json)}, EveryEntry P entries → EveryEntry Q entries
  | [], _ => trivial
  | _ :: _, ⟨hvalue, hrest⟩ => ⟨Everywhere.imp h hvalue, EveryEntry.imp h hrest⟩

end

/-- Entries that follow one another have the property when both parts do. -/
theorem everyEntry_append {left right : Entries} :
    EveryEntry P (left ++ right) ↔ EveryEntry P left ∧ EveryEntry P right := by
  induction left with
  | nil => simp [EveryEntry]
  | cons entry rest ih => simp [EveryEntry, ih, and_assoc]

/-- An entry that may be left out has the property when what is written has it. -/
theorem everyEntry_optionalEntry {α : Type} {key : String} {write : α → Json} {o : Option α}
    (h : ∀ a ∈ o, Everywhere P (some key) (write a)) :
    EveryEntry P (optionalEntry key write o) := by
  cases o with
  | none => trivial
  | some a => exact ⟨h a rfl, trivial⟩

end Json

end TaskDiagram
