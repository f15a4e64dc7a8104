/-!
# Entries by increasing key

Lists of entries whose keys strictly increase, and maps made of them. Since such a list is
determined by its entries alone, two maps with the same entries are equal.
-/

namespace TaskDiagram

variable {α : Type}

/-- Puts a value under a key in a list sorted by key, replacing an earlier value. -/
def insertSorted (key : String) (value : α) : List (String × α) → List (String × α)
  | [] => [(key, value)]
  | (k, v) :: rest =>
      if key < k then (key, value) :: (k, v) :: rest
      else if key = k then (key, value) :: rest
      else (k, v) :: insertSorted key value rest

/-- Entries by increasing key, the last value of each key. -/
def sortEntries (entries : List (String × α)) : List (String × α) :=
  entries.foldl (fun sorted entry => insertSorted entry.1 entry.2 sorted) []

/-- The value under a key; of a repeated key, the first one. -/
def findValue? (key : String) (entries : List (String × α)) : Option α :=
  (entries.find? (·.1 == key)).map (·.2)

/-- Keys strictly increase. -/
def KeysIncrease (entries : List (String × α)) : Prop :=
  entries.Pairwise fun a b => a.1 < b.1

/-- Insertion adds nothing but its own entry. -/
theorem mem_insertSorted {key : String} {value : α} {entries : List (String × α)}
    {entry : String × α} (h : entry ∈ insertSorted key value entries) :
    entry = (key, value) ∨ entry ∈ entries := by
  induction entries with
  | nil => simpa [insertSorted] using h
  | cons head rest ih =>
    obtain ⟨k, v⟩ := head
    unfold insertSorted at h
    split at h
    · simpa using h
    · split at h
      · rcases List.mem_cons.1 h with h | h
        · exact .inl h
        · exact .inr (List.mem_cons_of_mem _ h)
      · rcases List.mem_cons.1 h with h | h
        · exact .inr (h ▸ List.mem_cons_self)
        · exact (ih h).imp_right (List.mem_cons_of_mem _)

/-- Insertion keeps the keys increasing. -/
theorem keysIncrease_insertSorted {key : String} {value : α} {entries : List (String × α)}
    (h : KeysIncrease entries) : KeysIncrease (insertSorted key value entries) := by
  induction entries with
  | nil => simp [insertSorted, KeysIncrease]
  | cons head rest ih =>
    obtain ⟨k, v⟩ := head
    have hrest : KeysIncrease rest := (List.pairwise_cons.1 h).2
    have hhead := (List.pairwise_cons.1 h).1
    unfold insertSorted
    split
    next hlt =>
      refine List.pairwise_cons.2 ⟨fun entry hmem => ?_, h⟩
      rcases List.mem_cons.1 hmem with rfl | hmem
      · exact hlt
      · exact String.lt_trans hlt (hhead entry hmem)
    next hlt =>
      split
      next heq =>
        subst heq
        exact List.pairwise_cons.2 ⟨hhead, hrest⟩
      next hne =>
        refine List.pairwise_cons.2 ⟨fun entry hmem => ?_, ih hrest⟩
        rcases mem_insertSorted hmem with rfl | hmem
        · have hle : k ≤ key := String.not_lt.1 hlt
          refine Decidable.byContradiction fun hnot => hne ?_
          exact String.le_antisymm (String.not_lt.1 hnot) hle
        · exact hhead entry hmem

/-- A map from texts, as its entries by increasing key. -/
structure TextMap (α : Type) where
  entries : List (String × α)
  increasing : KeysIncrease entries

namespace TextMap

@[ext]
theorem ext {a b : TextMap α} (h : a.entries = b.entries) : a = b := by
  cases a; cases b; cases h; rfl

def empty : TextMap α := ⟨[], List.Pairwise.nil⟩

instance : Inhabited (TextMap α) := ⟨empty⟩

def get? (m : TextMap α) (key : String) : Option α := findValue? key m.entries

def insert (m : TextMap α) (key : String) (value : α) : TextMap α :=
  ⟨insertSorted key value m.entries, keysIncrease_insertSorted m.increasing⟩

def erase (m : TextMap α) (key : String) : TextMap α :=
  ⟨m.entries.filter (·.1 ≠ key), m.increasing.filter _⟩

def isEmpty (m : TextMap α) : Bool := m.entries.isEmpty

/-- The last value of each key. -/
def ofList (entries : List (String × α)) : TextMap α :=
  entries.foldl (fun m entry => m.insert entry.1 entry.2) empty

end TextMap

end TaskDiagram
