import TaskDiagram.Json.Fields

/-! # Reading back what was written

How a record reader finds its fields in a list of entries. The entries are given in the
pieces they are written in; a field that is written under one of its keys, and nowhere
else, is read back whatever stands around it.
-/

namespace TaskDiagram

/-- An entry under a key with the value that is written, if there is one. -/
def writtenUnder {α : Type} (key : String) (write : α → Json) (keys : List String)
    (o : Option α) : List Json :=
  if keys.contains key then (o.map write).toList else []

namespace Fields

variable {α β : Type} {name : String} {keys aliases : List String} {entries : Entries}

/-- The values under some keys, in the order of the entries. -/
def valuesUnder (keys : List String) (entries : Entries) : List Json :=
  (entries.filter fun entry => keys.contains entry.1).map (·.2)

theorem map_fst_occurrences (keys : List String) (entries : Entries) :
    (occurrences keys entries).map (·.1) = valuesUnder keys entries := by
  have hentries : entries.zipIdx.map (·.1) = entries := List.zipIdx_map_fst 0 entries
  rw [valuesUnder, ← hentries, List.filter_map, List.map_map, occurrences, List.map_map, hentries]
  rfl

@[simp]
theorem valuesUnder_nil (keys : List String) : valuesUnder keys [] = [] := rfl

@[simp]
theorem valuesUnder_append (keys : List String) (left right : Entries) :
    valuesUnder keys (left ++ right) = valuesUnder keys left ++ valuesUnder keys right := by
  simp [valuesUnder]

/-- An entry that may be left out is found under its own key. -/
@[simp]
theorem valuesUnder_optionalEntry (keys : List String) (key : String) (write : α → Json)
    (o : Option α) :
    valuesUnder keys (Json.optionalEntry key write o) = writtenUnder key write keys o := by
  cases o with
  | none => simp [valuesUnder, Json.optionalEntry, writtenUnder]
  | some a =>
      simp only [valuesUnder, Json.optionalEntry, writtenUnder, List.filter_cons, List.filter_nil]
      split <;> rfl

/-! ## Readers -/

/-- A field that is not written is what it stands for when it is missing. -/
theorem ofEntries_field_of_nil {decode : Decoder α} {absent : Absent α} {a : α}
    (hvalues : valuesUnder (name :: aliases) entries = []) (habsent : absent.inObject = some a) :
    (field name aliases absent decode).ofEntries entries = .ok a := by
  rw [← map_fst_occurrences, List.map_eq_nil_iff] at hvalues
  simp [field, hvalues, habsent]

/-- A field that is written once is read. -/
theorem ofEntries_field_of_singleton {decode : Decoder α} {absent : Absent α} {a : α} {value : Json}
    (hvalues : valuesUnder (name :: aliases) entries = [value]) (hdecode : decode value = .ok a) :
    (field name aliases absent decode).ofEntries entries = .ok a := by
  rw [← map_fst_occurrences] at hvalues
  obtain ⟨⟨found, i⟩, hfound, hvalue⟩ := List.map_eq_singleton_iff.mp hvalues
  obtain rfl : found = value := hvalue
  simp [field, hfound, hdecode]

/-- A field that is written nowhere else is read back. -/
theorem ofEntries_optionalAs {decode : Decoder β} {write : α → Json} {f : α → β} {o : Option α}
    (hvalues : valuesUnder (name :: aliases) entries = (o.map write).toList)
    (hread : ∀ a ∈ o, write a ≠ .null ∧ decode (write a) = .ok (f a)) :
    (optionalAs name aliases decode).ofEntries entries = .ok (o.map f) := by
  cases o with
  | none => exact ofEntries_field_of_nil hvalues rfl
  | some a =>
      obtain ⟨hnull, hdecode⟩ := hread a rfl
      apply ofEntries_field_of_singleton hvalues
      unfold Decode.option
      split
      next heq => exact absurd heq hnull
      next =>
        rw [hdecode]
        rfl

/-- A field that is left out when it is unset is read back. -/
theorem ofEntries_optionalAs_self {decode : Decoder α} {write : α → Json} {o : Option α}
    (hvalues : valuesUnder (name :: aliases) entries = (o.map write).toList)
    (hread : ∀ a ∈ o, write a ≠ .null ∧ decode (write a) = .ok a) :
    (optionalAs name aliases decode).ofEntries entries = .ok o := by
  simpa using ofEntries_optionalAs (f := id) hvalues hread

/-- A field that is written once, `null` when it is unset, is read back. -/
theorem ofEntries_nullable {decode : Decoder β} {write : α → Json} {f : α → β} {o : Option α}
    (hvalues : valuesUnder (name :: aliases) entries = [Json.ofOption write o])
    (hread : ∀ a ∈ o, write a ≠ .null ∧ decode (write a) = .ok (f a)) :
    (optionalAs name aliases decode).ofEntries entries = .ok (o.map f) := by
  apply ofEntries_field_of_singleton hvalues
  cases o with
  | none => rfl
  | some a =>
      obtain ⟨hnull, hdecode⟩ := hread a rfl
      unfold Decode.option
      split
      next heq => exact absurd heq hnull
      next =>
        rw [Json.ofOption, hdecode]
        rfl

/-- A field that is always written is read back, whatever else stands beside it. -/
theorem ofEntries_nullable_self {decode : Decoder α} {write : α → Json} {o : Option α}
    (hvalues : valuesUnder (name :: aliases) entries = [Json.ofOption write o])
    (hread : ∀ a ∈ o, write a ≠ .null ∧ decode (write a) = .ok a) :
    (optionalAs name aliases decode).ofEntries entries = .ok o := by
  simpa using ofEntries_nullable (f := id) hvalues hread

theorem ofEntries_map {fields : Fields α} {a : α} (f : α → β)
    (h : fields.ofEntries entries = .ok a) : (f <$> fields).ofEntries entries = .ok (f a) := by
  change (fields.ofEntries entries).map f = _
  rw [h]
  rfl

/-- Fields are read each by itself. -/
theorem ofEntries_seq {f : Fields (α → β)} {fields : Fields α} {g : α → β} {a : α}
    (hf : f.ofEntries entries = .ok g) (ha : fields.ofEntries entries = .ok a) :
    (f <*> fields).ofEntries entries = .ok (g a) := by
  change (f.app fields).ofEntries entries = _
  simp only [app, hf, ha]

/-- A record is read when its fields are. -/
theorem read_obj {fields : Fields α} {a : α} (name : String)
    (h : fields.ofEntries entries = .ok a) : fields.read name (.obj entries) = .ok a := by
  simp only [read, entriesOnly, h]
  rfl

end Fields

end TaskDiagram
