import Mathlib.Data.List.Sort
import TaskDiagram.KeyOrder

/-! # Lookup in maps from texts

What insertion and removal do to lookup, and that lookup determines a map. The
order in which entries were put into a map leaves no trace.
-/

namespace TaskDiagram

variable {α : Type}

theorem findValue?_insertSorted (entries : List (String × α)) (key other : String) (value : α) :
    findValue? other (insertSorted key value entries) =
      if other = key then some value else findValue? other entries := by
  induction entries with
  | nil => by_cases h : other = key <;> simp [insertSorted, findValue?, h, Ne.symm]
  | cons head rest ih =>
      obtain ⟨k, v⟩ := head
      simp only [findValue?] at ih ⊢
      unfold insertSorted
      split
      · by_cases h : other = key <;> simp [h, Ne.symm]
      next =>
        split
        next heq =>
          subst heq
          by_cases h : other = key <;> simp [h, Ne.symm]
        next hne =>
          by_cases h : other = k
          · subst h
            simp [Ne.symm hne]
          · simpa [Ne.symm h] using ih

/-- A key behind all others is put behind all others. -/
theorem insertSorted_of_lt {entries : List (String × α)} {key : String}
    (h : ∀ entry ∈ entries, entry.1 < key) (value : α) :
    insertSorted key value entries = entries ++ [(key, value)] := by
  induction entries with
  | nil => rfl
  | cons head rest ih =>
      obtain ⟨hhead, hrest⟩ := List.forall_mem_cons.mp h
      have hne : key ≠ head.1 := fun heq => String.lt_irrefl head.1 (heq ▸ hhead)
      rw [insertSorted, if_neg (String.lt_asymm hhead), if_neg hne, ih hrest, List.cons_append]

/-- No key stands twice where keys increase. -/
theorem findValue?_of_increasing {key : String} {value : α} {rest : List (String × α)}
    (h : KeysIncrease ((key, value) :: rest)) : findValue? key rest = none := by
  rw [findValue?, Option.map_eq_none_iff, List.find?_eq_none]
  intro entry hentry heq
  have hlt : key < entry.1 := (List.pairwise_cons.mp h).1 entry hentry
  rw [beq_iff_eq.mp heq] at hlt
  exact String.lt_irrefl key hlt

/-- With increasing keys an entry is in a list when its key is looked up to its value. -/
theorem mem_iff_findValue? {entries : List (String × α)} (h : KeysIncrease entries)
    (key : String) (value : α) :
    (key, value) ∈ entries ↔ findValue? key entries = some value := by
  induction entries with
  | nil => simp [findValue?]
  | cons head rest ih =>
      obtain ⟨k, v⟩ := head
      obtain ⟨hhead, hrest⟩ := List.pairwise_cons.mp h
      have ih := ih hrest
      simp only [findValue?] at ih ⊢
      by_cases hk : k = key
      · subst hk
        have hnot : (k, value) ∉ rest := fun hmem => String.lt_irrefl k (hhead _ hmem)
        simp [hnot, eq_comm]
      · simpa [hk, Ne.symm hk] using ih

/-- When entries are put in one after the other, the last one of a key is what is looked up. -/
theorem lookup_foldl {σ κ : Type} [DecidableEq κ] (get : σ → κ → Option α) (put : σ → κ × α → σ)
    (hput : ∀ s entry key,
      get (put s entry) key = if key = entry.1 then some entry.2 else get s key)
    (entries : List (κ × α)) (start : σ) (key : κ) :
    get (entries.foldl put start) key =
      ((entries.reverse.find? (·.1 == key)).map (·.2)).or (get start key) := by
  induction entries generalizing start with
  | nil => rfl
  | cons entry rest ih =>
      rw [List.foldl_cons, ih, hput, List.reverse_cons, List.find?_append, Option.map_or,
        Option.or_assoc]
      congr 1
      by_cases hkey : key = entry.1
      · simp [hkey]
      · simp [hkey, Ne.symm hkey]

namespace TextMap

@[simp]
theorem get?_empty (key : String) : (empty : TextMap α).get? key = none := rfl

theorem get?_insert (m : TextMap α) (key other : String) (value : α) :
    (m.insert key value).get? other = if other = key then some value else m.get? other :=
  findValue?_insertSorted m.entries key other value

/-- In a map made of a list the last entry of a key counts. -/
theorem get?_ofList (entries : List (String × α)) (key : String) :
    (ofList entries).get? key = findValue? key entries.reverse := by
  have hlookup := lookup_foldl get? (fun m entry => m.insert entry.1 entry.2)
    (fun m entry key => m.get?_insert entry.1 key entry.2) entries empty key
  rwa [get?_empty, Option.or_none] at hlookup

theorem get?_erase (m : TextMap α) (key other : String) :
    (m.erase key).get? other = if other = key then none else m.get? other := by
  unfold get? erase findValue?
  rw [List.find?_filter]
  split
  next h => simp [h]
  next h =>
    congr 2
    funext entry
    by_cases he : entry.1 = other
    · simp [he, h]
    · simp [he]

/-- Maps that look up the same are the same. -/
theorem ext_get? {a b : TextMap α} (h : ∀ key, a.get? key = b.get? key) : a = b := by
  apply ext
  have : Std.Antisymm fun x y : String × α => x.1 < y.1 :=
    ⟨fun x y hxy hyx => absurd hyx (String.lt_asymm hxy)⟩
  have : Std.Irrefl fun x y : String × α => x.1 < y.1 := ⟨fun x => String.lt_irrefl x.1⟩
  apply List.Pairwise.eq_of_mem_iff a.increasing b.increasing
  rintro ⟨key, value⟩
  rw [mem_iff_findValue? a.increasing, mem_iff_findValue? b.increasing]
  exact iff_of_eq (congrArg (· = some value) (h key))

theorem entries_foldl_insert (entries : List (String × α)) (m : TextMap α)
    (h : KeysIncrease (m.entries ++ entries)) :
    (entries.foldl (fun m entry => m.insert entry.1 entry.2) m).entries = m.entries ++ entries := by
  induction entries generalizing m with
  | nil => exact (List.append_nil _).symm
  | cons entry rest ih =>
      have hlt : ∀ earlier ∈ m.entries, earlier.1 < entry.1 := fun earlier hearlier =>
        (List.pairwise_append.mp h).2.2 earlier hearlier entry List.mem_cons_self
      have hinsert : (m.insert entry.1 entry.2).entries = m.entries ++ [entry] :=
        insertSorted_of_lt hlt entry.2
      have hmore : m.entries ++ entry :: rest = (m.insert entry.1 entry.2).entries ++ rest := by
        rw [hinsert, List.append_assoc, List.singleton_append]
      rw [List.foldl_cons, hmore]
      exact ih _ (hmore ▸ h)

/-- A map is made of its entries. -/
theorem ofList_entries (m : TextMap α) : ofList m.entries = m :=
  ext (entries_foldl_insert m.entries empty m.increasing)

end TextMap

end TaskDiagram
