import TaskDiagram.Proofs.Program.Depth
import TaskDiagram.Proofs.Service.Effects

/-! # Tasks that cannot be read again

A program comes to the service as a document that a reader went through, and is stored as another
one that may be nested deeper. The service accepts it all the same. Whether the task can be read
after that, and with it the list of all tasks, depends on the depth of what was stored only.
-/

namespace TaskDiagram

open Json (maxDepth)

namespace Application

variable {app : Application} {stamp : Stamp} {m : HttpMessage} {request : Request} {id : Uuid}
  {p : Program}

/-- A task whose program is kept is found if it can be read; otherwise the store fails. -/
theorem find_spec (hdocument : app.tasks.document? id = some p.graphicDocument)
    (hp : ∀ c ∈ p.controls, c.Readable) :
    if p.graphicDocument.height ≤ maxDepth then ∃ info, app.find id = .ok ⟨info, p.stored⟩
    else ∃ message, app.find id = .error (.storage (.query message)) := by
  split
  next hfits =>
    obtain ⟨info, -, hget⟩ := TaskStore.get?_of_fits hdocument hp hfits
    rw [find, hget]
    exact ⟨info, rfl⟩
  next hdeep =>
    obtain ⟨message, hget⟩ := TaskStore.get?_of_overflow hdocument hdeep
    rw [find, hget]
    exact ⟨message, rfl⟩

/-- So it is with all questions about the task alone. -/
theorem status_reader {reader : HttpMessage}
    (hreader : reader.request = .ok (.readProgram id none) ∨ reader.request = .ok (.readDiagram id))
    (hdocument : app.tasks.document? id = some p.graphicDocument)
    (hp : ∀ c ∈ p.controls, c.Readable) (stamp : Stamp) :
    (app.serve stamp reader).1.status =
      if p.graphicDocument.height ≤ maxDepth then 200 else 500 := by
  have hfind := find_spec hdocument hp
  split at hfind
  next hfits =>
    obtain ⟨info, hfind⟩ := hfind
    rw [if_pos hfits]
    obtain hreader | hreader := hreader <;>
      simp only [status_serve hreader, answer, readProgram, readDiagram, hfind] <;> rfl
  next hdeep =>
    obtain ⟨message, hfind⟩ := hfind
    rw [if_neg hdeep]
    obtain hreader | hreader := hreader <;>
      simp only [status_serve hreader, answer, readProgram, readDiagram, hfind] <;> rfl

/-- A list of all tasks, in an order that is spelled right, is answered if each of them can be read.
If one cannot, the store fails. -/
theorem status_lister (app : Application) {lister : HttpMessage} {order : Option String}
    {sorted : SortOrder} (hlister : lister.request = .ok (.listTasks false order none))
    (horder : sortOrder order = .ok sorted) (stamp : Stamp) :
    ((∀ row ∈ app.tasks.rows, ∃ t, row.load = .ok t) ∧ (app.serve stamp lister).1.status = 200) ∨
      (∃ row ∈ app.tasks.rows, ∃ e, row.load = .error e) ∧
        (app.serve stamp lister).1.status = 500 := by
  have hspec := app.tasks.list_all_spec sorted
  rw [status_serve hlister]
  simp only [answer, listTasks, horder, bind, Except.bind]
  cases hlist : app.tasks.list ⟨false, sorted, none⟩ with
  | ok tasks =>
      rw [hlist] at hspec
      exact .inl ⟨hspec, rfl⟩
  | error e =>
      rw [hlist] at hspec
      obtain ⟨row, hrow, hload⟩ := hspec
      obtain ⟨message, rfl⟩ := row.error_of_load hload
      exact .inr ⟨⟨row, hrow, _, hload⟩, rfl⟩

/-- A list of all tasks is answered only if its order is spelled right. -/
theorem sortOrder_of_status_lister {lister : HttpMessage} {order : Option String}
    (hlister : lister.request = .ok (.listTasks false order none))
    (hstatus : (app.serve stamp lister).1.status = 200) : ∃ sorted, sortOrder order = .ok sorted := by
  rw [status_serve hlister] at hstatus
  simp only [answer, listTasks, bind, Except.bind] at hstatus
  cases horder : sortOrder order with
  | ok sorted => exact ⟨sorted, rfl⟩
  | error e =>
      rw [horder] at hstatus
      exact absurd hstatus (status_ne_ok e)

/-- An accepted message that brings a program puts one task, under the id it is for. -/
theorem serve_put (hm : m.request = .ok request)
    (hput : request.put? app.config.layout = some (id, p))
    (haccepted : (app.serve stamp m).1.status = 200) :
    ∃ info : TaskInfo, info.id = id ∧
      (app.serve stamp m).2 = { app with tasks := app.tasks.put ⟨info, p⟩ } := by
  obtain ⟨request', hrequest, -, heffect⟩ | ⟨-, hrefused⟩ := app.serve_effect stamp m
  · obtain rfl := Except.ok.inj (hm.symm.trans hrequest)
    exact heffect.of_put? hput
  · exact absurd haccepted (hrefused request hm)

/-- The document of the program that was put is what is kept under its id. -/
theorem document?_of_put {next : Application} {info : TaskInfo} (hid : info.id = id)
    (hnext : next = { app with tasks := app.tasks.put ⟨info, p⟩ }) :
    next.tasks.document? id = some p.graphicDocument := by
  rw [hnext, TaskStore.document?_put, if_pos hid]

/-! ## Writing nested controls -/

/-- A message that writes controls nested in one another. -/
def nestedMessage (n : Nat) : HttpMessage :=
  aboutTask "PUT" (Json.obj (nestedEntries (n + 1))).compact

/-- The request it stands for. -/
def nestedWrite (n : Nat) : Request := .writeProgram ⟨1⟩ none (.obj (nestedEntries (n + 1)))

theorem request_nestedMessage {n : Nat} (h : n + 1 < maxDepth) :
    (nestedMessage n).request = .ok (nestedWrite n) := by
  rw [nestedMessage, request_aboutTask_put (read_nestedEntries h), canonical_nestedEntries]
  rfl

theorem put?_nestedWrite (n : Nat) (layout : Layout) :
    (nestedWrite n).put? layout = some (⟨1⟩, ⟨.empty, nestedControls n⟩) := by
  rw [nestedWrite, Request.put?, ofDocument_nestedEntries]
  rfl

/-- A service that has nothing yet accepts them. -/
theorem status_nestedMessage {n : Nat} (h : n + 1 < maxDepth) (config : Config) (stamp : Stamp) :
    ((new config).serve stamp (nestedMessage n)).1.status = 200 := by
  rw [status_serve (request_nestedMessage h)]
  simp only [answer, nestedWrite, writeProgram, ofDocument_nestedEntries]
  rfl

/-- Controls that are read may be stored as a document that no reader gets through. Neither the task
nor any list is shown from then on. -/
theorem lost_of_nested {n : Nat} (hread : n + 1 < maxDepth) (hlost : 126 ≤ n + 1)
    (config : Config) (stamp : Stamp) {lister : HttpMessage}
    (hlister : lister.request = .ok (.listTasks false none none)) :
    (((new config).serve stamp (nestedMessage n)).2.serve stamp (aboutTask "GET" "")).1.status =
        500 ∧
      (((new config).serve stamp (nestedMessage n)).2.serve stamp lister).1.status = 500 := by
  obtain ⟨info, hid, hnext⟩ := serve_put (request_nestedMessage hread)
    (put?_nestedWrite n config.layout) (status_nestedMessage hread config stamp)
  have hkept := document?_of_put hid hnext
  have hdeep : ¬ (Program.mk .empty (nestedControls n)).graphicDocument.height ≤ maxDepth := by
    apply Program.overflows_of_le_length
    rwa [storedChain_nestedControls, length_nestedControls]
  refine ⟨?_, ?_⟩
  · rw [status_reader (.inl request_aboutTask_get) hkept (readable_nestedControls n) stamp,
      if_neg hdeep]
  · obtain ⟨row, hrow, -, hrowdocument, -⟩ := TaskStore.exists_row_of_document? hkept
    obtain ⟨message, herror⟩ := row.load_of_overflow hrowdocument hdeep
    obtain ⟨hloads, -⟩ | ⟨-, hfails⟩ := status_lister _ hlister rfl stamp
    · obtain ⟨t, hload⟩ := hloads row hrow
      cases hload.symm.trans herror
    · exact hfails

/-- An accepted request that writes a program leaves it in the store as its document, whose text is
read back, and the task is then shown, exactly if that document is not nested too deep; so is the
list of all tasks if it was before. This is so for up to 123 controls in sequence, and not for 126
or more of those that are stored. -/
theorem accepted_writes_are_read_back_up_to_depth (hm : m.request = .ok request)
    (hput : request.put? app.config.layout = some (id, p))
    (haccepted : (app.serve stamp m).1.status = 200) :
    let next := (app.serve stamp m).2
    let fits := p.graphicDocument.height ≤ maxDepth
    (∃ row ∈ next.tasks.rows, row.info.id = id ∧ row.document = p.graphicDocument ∧
      Json.read row.document.compact = if fits then .ok row.document else .error .malformed) ∧
    (∀ other reader, reader.request = .ok (.readProgram id none) ∨
        reader.request = .ok (.readDiagram id) →
      (next.serve other reader).1.status = if fits then 200 else 500) ∧
    (∀ other lister order, lister.request = .ok (.listTasks false order none) →
      (app.serve other lister).1.status = 200 →
        (next.serve other lister).1.status = if fits then 200 else 500) ∧
    (p.controls.length ≤ 123 → fits) ∧
    (126 ≤ (Control.storedChain p.controls).length → ¬ fits) := by
  intro next fits
  obtain ⟨info, hid, hnext⟩ := serve_put hm hput haccepted
  have hp := Request.readable_of_put? hput
  have hdocument : next.tasks.document? id = some p.graphicDocument := document?_of_put hid hnext
  obtain ⟨row, hrow, hrowid, hrowdocument, -⟩ := TaskStore.exists_row_of_document? hdocument
  refine ⟨⟨row, hrow, hrowid, hrowdocument, ?_⟩, fun other reader hreader =>
    status_reader hreader hdocument hp other, ?_, Program.fits_of_length_le,
    Program.overflows_of_le_length⟩
  · rw [hrowdocument]
    exact p.read_compact_graphicDocument
  · intro other lister order hlister hbefore
    obtain ⟨sorted, horder⟩ := sortOrder_of_status_lister hlister hbefore
    obtain ⟨hloads, -⟩ | ⟨-, hfails⟩ := status_lister app hlister horder other
    swap
    · cases hbefore.symm.trans hfails
    -- All rows but the one that was written could be loaded before.
    obtain ⟨hall, hstatus⟩ | ⟨⟨bad, hbad, e, hload⟩, hstatus⟩ :=
      status_lister next hlister horder other
    · rw [hstatus, if_pos]
      by_contra hdeep
      obtain ⟨message, herror⟩ := row.load_of_overflow hrowdocument hdeep
      obtain ⟨t, hload⟩ := hall row hrow
      cases hload.symm.trans herror
    · rw [hstatus, if_neg]
      intro hfits
      change bad ∈ (app.serve stamp m).2.tasks.rows at hbad
      rw [hnext] at hbad
      obtain hold | hnew := TaskStore.mem_rows_put hbad
      · obtain ⟨t, hloaded⟩ := hloads bad hold
        cases hloaded.symm.trans hload
      · cases (bad.load_of_fits hnew hp hfits).symm.trans hload

/-- A single control comes as a document that is read, is accepted, and is shown. -/
theorem single_control_is_read_back :
    (nestedMessage 0).request = .ok (nestedWrite 0) ∧
      (nestedWrite 0).put? Config.standard.layout = some (⟨1⟩, ⟨.empty, nestedControls 0⟩) ∧
      ((new .standard).serve ⟨⟨0⟩, ⟨2⟩⟩ (nestedMessage 0)).1.status = 200 ∧
      (((new .standard).serve ⟨⟨0⟩, ⟨2⟩⟩ (nestedMessage 0)).2.serve ⟨⟨0⟩, ⟨2⟩⟩
        (aboutTask "GET" "")).1.status = 200 := by
  have hm := @request_nestedMessage 0 (by decide)
  have hput := put?_nestedWrite 0 Config.standard.layout
  have haccepted := @status_nestedMessage 0 (by decide) .standard ⟨⟨0⟩, ⟨2⟩⟩
  obtain ⟨-, hreader, -, hfits, -⟩ := accepted_writes_are_read_back_up_to_depth hm hput haccepted
  refine ⟨hm, hput, haccepted, ?_⟩
  rw [hreader _ _ (.inl request_aboutTask_get), if_pos (hfits (by decide))]

/-- A program of 126 controls comes as a document that is read, is accepted, and is lost. -/
theorem nested_program_is_accepted_and_lost :
    ((new .standard).serve ⟨⟨0⟩, ⟨2⟩⟩ (nestedMessage 125)).1.status = 200 ∧
      (((new .standard).serve ⟨⟨0⟩, ⟨2⟩⟩ (nestedMessage 125)).2.serve ⟨⟨0⟩, ⟨2⟩⟩
        (aboutTask "GET" "")).1.status = 500 ∧
      (((new .standard).serve ⟨⟨0⟩, ⟨2⟩⟩ (nestedMessage 125)).2.serve ⟨⟨0⟩, ⟨2⟩⟩
        ⟨"GET", "/api/v1/tasks", false, ""⟩).1.status = 500 :=
  ⟨status_nestedMessage (by decide) .standard ⟨⟨0⟩, ⟨2⟩⟩,
    lost_of_nested (by decide) (by decide) .standard ⟨⟨0⟩, ⟨2⟩⟩ (by with_unfolding_all rfl)⟩

end Application

end TaskDiagram
