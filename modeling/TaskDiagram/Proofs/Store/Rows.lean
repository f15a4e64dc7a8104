import TaskDiagram.Proofs.Json.Results
import TaskDiagram.Proofs.Program.Stored
import TaskDiagram.Store.Task

/-! # Rows of the store

What is kept under an id after a write or a removal, and what is read of it. A row keeps a program
as its document, and what is read back is the program without the records in which nothing is set,
or a failure where the document is nested too deeply for a reader.
-/

namespace TaskDiagram

open Json (maxDepth)

/-- Under an id that was struck out nothing is found, and under any other what was there before. -/
theorem find?_filter_ne {α : Type} (key : α → Uuid) (rows : List α) (gone id : Uuid) :
    (rows.filter (key · ≠ gone)).find? (key · = id) =
      if gone = id then none else rows.find? (key · = id) := by
  rw [List.find?_filter]
  split
  next hgone => simp [hgone]
  next hgone =>
    congr 1
    funext row
    by_cases hrow : key row = id <;> simp [hrow, Ne.symm hgone]

namespace TaskRow

variable {row : TaskRow} {p : Program}

/-- A row is read when its document is not nested too deep, and gives the program as it is stored.
-/
theorem load_of_fits (hrow : row.document = p.graphicDocument)
    (hp : ∀ c ∈ p.controls, c.Readable) (hfits : p.graphicDocument.height ≤ maxDepth) :
    row.load = .ok ⟨row.info, p.stored⟩ := by
  simp only [load, Json.isReadable, hrow, hfits, decide_true, if_true,
    Program.ofDocument_graphicDocument hp]

/-- A row whose document is nested too deep is not read. -/
theorem load_of_overflow (hrow : row.document = p.graphicDocument)
    (hdeep : ¬ p.graphicDocument.height ≤ maxDepth) :
    ∃ message, row.load = .error (.query message) := by
  simp only [load, Json.isReadable, hrow, hdeep, decide_false, Bool.false_eq_true, if_false]
  exact ⟨_, rfl⟩

/-- Reading a row fails as a query does, and in no other way. -/
theorem error_of_load {e : StorageError} (h : row.load = .error e) :
    ∃ message, e = .query message := by
  unfold load at h
  split at h
  · split at h
    · cases h
    · exact ⟨_, (Except.error.inj h).symm⟩
  · exact ⟨_, (Except.error.inj h).symm⟩

theorem info_of_load {t : StoredTask} (h : row.load = .ok t) : t.info = row.info := by
  unfold load at h
  split at h
  · split at h
    · cases h
      rfl
    · cases h
  · cases h

end TaskRow

namespace TaskStore

variable {s : TaskStore} {t : StoredTask} {id : Uuid} {p : Program}

/-- The document kept under an id. -/
def document? (s : TaskStore) (id : Uuid) : Option Json := (s.row? id).map (·.document)

/-- A write changes the document under its own id. -/
theorem document?_put (s : TaskStore) (t : StoredTask) (id : Uuid) :
    (s.put t).document? id =
      if t.info.id = id then some t.program.graphicDocument else s.document? id := by
  obtain ⟨rows⟩ := s
  change ((putRow (.ofStored t) rows).find? (·.info.id = id)).map (·.document) =
    if t.info.id = id then some t.program.graphicDocument
    else (rows.find? (·.info.id = id)).map (·.document)
  induction rows with
  | nil => by_cases hid : t.info.id = id <;> simp [putRow, TaskRow.ofStored, hid]
  | cons old rest ih =>
      rw [putRow]
      by_cases hold : old.info.id = (TaskRow.ofStored t).info.id
      · rw [if_pos hold]
        change old.info.id = t.info.id at hold
        by_cases hid : t.info.id = id <;> simp [TaskRow.ofStored, hold, hid]
      · rw [if_neg hold]
        change ¬ old.info.id = t.info.id at hold
        by_cases hid : old.info.id = id
        · have hother : t.info.id ≠ id := fun heq => hold (hid.trans heq.symm)
          simp [hid, hother]
        · simpa [hid] using ih

/-- A removal takes the document under its own id. -/
theorem document?_erase? {s' : TaskStore} {gone : Uuid} (h : s.erase? gone = some s') (id : Uuid) :
    s'.document? id = if gone = id then none else s.document? id := by
  unfold erase? at h
  split at h
  next =>
    obtain rfl := Option.some.inj h
    rw [document?, row?, find?_filter_ne]
    split <;> rfl
  next => cases h

/-- After a write there are the rows there were, but for one that keeps the program written. -/
theorem mem_rows_put {row : TaskRow} (h : row ∈ (s.put t).rows) :
    row ∈ s.rows ∨ row.document = t.program.graphicDocument := by
  obtain ⟨rows⟩ := s
  change row ∈ putRow (.ofStored t) rows at h
  change row ∈ rows ∨ _
  induction rows with
  | nil => exact .inr (List.mem_singleton.mp h ▸ rfl)
  | cons old rest ih =>
      rw [putRow] at h
      split at h <;> obtain rfl | h := List.mem_cons.mp h
      · exact .inr rfl
      · exact .inl (List.mem_cons_of_mem _ h)
      · exact .inl List.mem_cons_self
      · exact (ih h).imp_left (List.mem_cons_of_mem _)

/-- Where a document is kept there is a row, and the row is what is read. -/
theorem exists_row_of_document? {document : Json} (h : s.document? id = some document) :
    ∃ row ∈ s.rows, row.info.id = id ∧ row.document = document ∧ s.get? id = row.load.map some := by
  obtain ⟨row, hrow, hdocument⟩ := Option.map_eq_some_iff.mp h
  refine ⟨row, List.mem_of_find?_eq_some hrow, by simpa using List.find?_some hrow, hdocument, ?_⟩
  rw [get?, hrow]

theorem info_id_of_get? (h : s.get? id = .ok (some t)) : t.info.id = id := by
  unfold get? at h
  split at h
  next row hrow =>
    obtain ⟨loaded, hload, heq⟩ := Except.of_map_eq_ok h
    obtain rfl := Option.some.inj heq
    rw [row.info_of_load hload]
    simpa using List.find?_some hrow
  next => cases h

theorem get?_of_none (h : s.document? id = none) : s.get? id = .ok none := by
  rw [get?, Option.map_eq_none_iff.mp h]

/-- What is read under an id where a program is kept that a reader can cope with. -/
theorem get?_of_fits (h : s.document? id = some p.graphicDocument)
    (hp : ∀ c ∈ p.controls, c.Readable) (hfits : p.graphicDocument.height ≤ maxDepth) :
    ∃ info : TaskInfo, info.id = id ∧ s.get? id = .ok (some ⟨info, p.stored⟩) := by
  obtain ⟨row, -, hid, hdocument, hget⟩ := exists_row_of_document? h
  rw [row.load_of_fits hdocument hp hfits] at hget
  exact ⟨row.info, hid, hget⟩

/-- Reading fails under an id where a document is kept that is nested too deep. -/
theorem get?_of_overflow (h : s.document? id = some p.graphicDocument)
    (hdeep : ¬ p.graphicDocument.height ≤ maxDepth) :
    ∃ message, s.get? id = .error (.query message) := by
  obtain ⟨row, -, -, hdocument, hget⟩ := exists_row_of_document? h
  obtain ⟨message, hload⟩ := row.load_of_overflow hdocument hdeep
  rw [hload] at hget
  exact ⟨message, hget⟩

theorem mem_selected_all {row : TaskRow} {order : SortOrder} :
    row ∈ s.selected ⟨false, order, none⟩ ↔ row ∈ s.rows := by
  simp [selected, cut]

/-- A list of all tasks shows them if each can be read, and fails as one of them does. -/
theorem list_all_spec (s : TaskStore) (order : SortOrder) :
    match s.list ⟨false, order, none⟩ with
    | .ok _ => ∀ row ∈ s.rows, ∃ t, row.load = .ok t
    | .error e => ∃ row ∈ s.rows, row.load = .error e := by
  have hspec := Except.mapM_spec TaskRow.load (s.selected ⟨false, order, none⟩)
  simp only [mem_selected_all] at hspec
  cases hlist : s.list ⟨false, order, none⟩ <;> rw [list] at hlist <;> rw [hlist] at hspec <;>
    exact hspec

end TaskStore

end TaskDiagram
