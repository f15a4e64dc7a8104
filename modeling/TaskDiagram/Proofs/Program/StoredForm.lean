import TaskDiagram.Proofs.Json.Everywhere
import TaskDiagram.Proofs.Program.Readable

/-! # The stored form, read back and written again

Pruning takes out of a document what nothing is set in: leaves that are unset, and the records of
events, second branches and controls that hold neither a set leaf nor the record of a step or a
searched object. What is read back is therefore the program without just those records, and it is
stored as the same document.
-/

namespace TaskDiagram

/-! ## What a stored program keeps -/

/-- A leaf is set or the record of a searched object is there. -/
def Event.IsKept (e : Event) : Prop := e.type.isSome ∨ e.findObject.isSome

/-- The record of a step is there, set or not. -/
def Steps.IsKept (s : Steps) : Prop := ∃ kind, (s.get kind).isSome

/-- A leaf is set, or a record is there that stands for a block even when it is not. -/
def Control.IsKept (c : Control) : Prop :=
  c.type.isSome ∨ c.times.isSome ∨ (∃ e ∈ c.event, e.IsKept) ∨ (∃ s ∈ c.otherwise, s.IsKept) ∨
    c.steps.IsKept

/-- `d` is `c` without an event and a second branch that hold nothing. -/
structure Control.KeptAs (c d : Control) : Prop where
  type : d.type = c.type
  times : d.times = c.times
  steps : d.steps = c.steps
  event : ∀ e, e ∈ d.event ↔ e ∈ c.event ∧ e.IsKept
  otherwise : ∀ s, s ∈ d.otherwise ↔ s ∈ c.otherwise ∧ s.IsKept

/-- `q` is `p` without events and second branches that hold nothing, and without the controls that
hold nothing and have none behind them that does. -/
structure Program.KeptAs (p q : Program) : Prop where
  steps : q.steps = p.steps
  controls : ∃ kept dropped, p.controls = kept ++ dropped ∧ (∀ c ∈ dropped, ¬ c.IsKept) ∧
    (∀ c ∈ kept.getLast?, c.IsKept) ∧ List.Forall₂ Control.KeptAs kept q.controls

/-- An event is kept when it is not the blank one. -/
theorem Event.isKept_iff {e : Event} : e.IsKept ↔ e ≠ .blank := by
  obtain ⟨type, findObject⟩ := e
  cases type <;> cases findObject <;> simp [IsKept, blank]

/-- Steps are kept when any of them is there. -/
theorem Steps.isKept_iff {s : Steps} : s.IsKept ↔ s ≠ .empty := by
  obtain ⟨pick, processing, place⟩ := s
  constructor
  · rintro ⟨kind, hkind⟩ hempty
    cases hempty
    cases kind <;> cases hkind
  · intro hne
    by_contra hkept
    have hmissing : ∀ kind, Steps.get ⟨pick, processing, place⟩ kind = none := by
      simpa [IsKept] using hkept
    obtain rfl : pick = none := hmissing .pick
    obtain rfl : processing = none := hmissing .processing
    obtain rfl : place = none := hmissing .place
    exact hne rfl

/-- The stored control differs from the control by the events and second branches that hold nothing.
-/
theorem Control.keptAs_stored (c : Control) : c.KeptAs c.stored where
  type := rfl
  times := rfl
  steps := rfl
  event e := by simp [stored, Option.filter_eq_some_iff, Event.isKept_iff]
  otherwise s := by simp [stored, Option.filter_eq_some_iff, Steps.isKept_iff, ← Steps.isEmpty_iff]

/-- A control is kept when something of it is stored. -/
theorem Control.isKept_iff {c : Control} : c.IsKept ↔ c.stored ≠ .empty := by
  have hevent : (∃ e ∈ c.event, e.IsKept) ↔ c.stored.event ≠ none := by
    rw [Option.ne_none_iff_exists']
    exact exists_congr fun e => (c.keptAs_stored.event e).symm
  have hotherwise : (∃ s ∈ c.otherwise, s.IsKept) ↔ c.stored.otherwise ≠ none := by
    rw [Option.ne_none_iff_exists']
    exact exists_congr fun s => (c.keptAs_stored.otherwise s).symm
  have hempty : c.stored = .empty ↔ c.type = none ∧ c.times = none ∧ c.stored.event = none ∧
      c.stored.otherwise = none ∧ c.steps = .empty := by
    simp [stored, empty]
  rw [IsKept, hevent, hotherwise, Steps.isKept_iff, ne_eq c.stored, hempty]
  simp only [Option.isSome_iff_ne_none]
  tauto

/-- The chain is cut behind the last control that holds something. -/
theorem Control.exists_kept (cs : List Control) :
    ∃ kept dropped, cs = kept ++ dropped ∧ (∀ c ∈ dropped, ¬ c.IsKept) ∧
      (∀ c ∈ kept.getLast?, c.IsKept) ∧ List.Forall₂ KeptAs kept (storedChain cs) := by
  induction cs with
  | nil => exact ⟨[], [], rfl, by simp, by simp, .nil⟩
  | cons c rest ih =>
      obtain ⟨kept, dropped, rfl, hdropped, hlast, hkept⟩ := ih
      rw [storedChain]
      split
      next hnone =>
        obtain ⟨hrest, hc⟩ := hnone
        rw [hrest, List.forall₂_nil_right_iff] at hkept
        subst hkept
        refine ⟨[], c :: dropped, rfl, ?_, by simp, .nil⟩
        rw [List.forall_mem_cons]
        exact ⟨by rw [isKept_iff, not_not, hc], hdropped⟩
      next hsome =>
        refine ⟨c :: kept, dropped, rfl, hdropped, ?_, .cons c.keptAs_stored hkept⟩
        cases kept with
        | nil =>
            rw [List.forall₂_nil_left_iff.mp hkept] at hsome
            intro other hother
            cases hother
            exact isKept_iff.mpr fun hc => hsome ⟨rfl, hc⟩
        | cons first more => rwa [List.getLast?_cons_cons]

/-- The stored program differs from the program by the records that hold nothing. -/
theorem Program.keptAs_stored (p : Program) : p.KeptAs p.stored :=
  ⟨rfl, Control.exists_kept p.controls⟩

/-! ## Storing what was stored -/

/-- Storing a control a second time takes nothing more out of it. -/
theorem Control.stored_stored (c : Control) : c.stored.stored = c.stored := by
  simp [stored, Option.filter_filter]

/-- A chain is written in the same way after it has been cut. -/
theorem Control.chainEntries_storedChain (cs : List Control) :
    chainEntries (storedChain cs) = chainEntries cs := by
  induction cs with
  | nil => rfl
  | cons c rest ih =>
      by_cases hnone : storedChain (c :: rest) = []
      · rw [hnone, (chainEntries_eq_nil _).mpr hnone]
        rfl
      · rw [storedChain_cons hnone, chainEntries_cons, chainEntries_cons, ih, stored_stored]
        rfl

/-- What was stored is stored as the same document. -/
theorem Program.graphicDocument_stored (p : Program) :
    p.stored.graphicDocument = p.graphicDocument := by
  rw [graphicDocument, graphicDocument, stored, Control.chainEntries_storedChain]

/-! ## What is written -/

namespace Json

/-- No `null`, and no empty object but under the keys of records that stand for blocks. -/
def IsPruned (key : Option String) (value : Json) : Prop :=
  value ≠ .null ∧
    (value = .obj [] → key ∈ ["program", "pick", "processing", "place", "find_object"].map some)

/-- An object with something in it is pruned when its entries are. -/
theorem everywhere_obj_of_ne_nil {key : Option String} {entries : Entries} (hne : entries ≠ [])
    (h : EveryEntry IsPruned entries) : Everywhere IsPruned key (.obj entries) :=
  ⟨⟨nofun, fun heq => absurd (by simpa using heq) hne⟩, h⟩

end Json

open Json

theorem isPruned_str (key : Option String) (s : String) : IsPruned key (.str s) := by
  simp [IsPruned]

theorem isPruned_int (key : Option String) (n : Int) : IsPruned key (.int n) := by
  simp [IsPruned]

/-- A record that is left out when empty is pruned when its entries are. -/
theorem everyEntry_nonemptyEntry {key : String} {entries : Entries}
    (h : EveryEntry IsPruned entries) : EveryEntry IsPruned (nonemptyEntry key entries) := by
  unfold nonemptyEntry
  split
  next => trivial
  next hne => exact ⟨everywhere_obj_of_ne_nil hne h, trivial⟩

theorem Reference.pruned_setEntries (kind : LibraryKind) (r : Reference) :
    EveryEntry IsPruned (r.setEntries kind) := by
  rw [setEntries, everyEntry_append]
  exact ⟨everyEntry_optionalEntry fun s _ => isPruned_str _ s,
    everyEntry_optionalEntry fun n _ => isPruned_int _ n.toInt⟩

/-- The record of a reference may be empty under the keys of steps and of a searched object. -/
theorem Reference.pruned_entry {key : String} (kind : LibraryKind) (o : Option Reference)
    (hkey : key ∈ ["program", "pick", "processing", "place", "find_object"]) :
    EveryEntry IsPruned (optionalEntry key (fun r => .obj (r.setEntries kind)) o) :=
  everyEntry_optionalEntry fun r _ =>
    ⟨⟨nofun, fun _ => List.mem_map_of_mem hkey⟩, r.pruned_setEntries kind⟩

theorem Event.pruned_setEntries (e : Event) : EveryEntry IsPruned e.setEntries := by
  rw [setEntries, everyEntry_append]
  exact ⟨everyEntry_optionalEntry fun type _ => isPruned_str _ type.text,
    Reference.pruned_entry .object e.findObject (by simp)⟩

theorem Steps.pruned_setEntries (s : Steps) : EveryEntry IsPruned s.setEntries := by
  rw [setEntries, everyEntry_append, everyEntry_append]
  exact ⟨⟨Reference.pruned_entry .object s.pick (by simp),
    Reference.pruned_entry .location s.place (by simp)⟩,
    Reference.pruned_entry .action s.processing (by simp)⟩

/-- Nothing of a chain of controls is written that could be pruned. -/
theorem Control.pruned_chainEntries (cs : List Control) :
    EveryEntry IsPruned (chainEntries cs) := by
  induction cs with
  | nil => trivial
  | cons c rest ih =>
      have hevent : EveryEntry IsPruned ((c.event.map Event.setEntries).getD []) := by
        cases c.event with
        | none => trivial
        | some e => exact e.pruned_setEntries
      have hotherwise : EveryEntry IsPruned ((c.otherwise.map Steps.setEntries).getD []) := by
        cases c.otherwise with
        | none => trivial
        | some s => exact s.pruned_setEntries
      simp only [chainEntries, everyEntry_append]
      exact ⟨⟨⟨⟨⟨everyEntry_nonemptyEntry ih,
        everyEntry_optionalEntry fun type _ => isPruned_str _ type.text⟩,
        everyEntry_nonemptyEntry hevent⟩, everyEntry_nonemptyEntry hotherwise⟩,
        c.steps.pruned_setEntries⟩, everyEntry_optionalEntry fun n _ => isPruned_int _ n.toInt⟩

/-- There is nothing left to prune in the stored form of a program. -/
theorem Program.pruned_graphicDocument (p : Program) :
    Everywhere IsPruned none p.graphicDocument := by
  have hentries : EveryEntry IsPruned
      (nonemptyEntry "control" (Control.chainEntries p.controls) ++ p.steps.setEntries) :=
    everyEntry_append.mpr
      ⟨everyEntry_nonemptyEntry (Control.pruned_chainEntries _), p.steps.pruned_setEntries⟩
  refine everywhere_obj_of_ne_nil (List.cons_ne_nil _ _) ⟨?_, trivial⟩
  exact ⟨⟨nofun, fun _ => by simp⟩, hentries⟩

/-- What is read from the stored form of a program that was read is the program without the
records that hold nothing; it is stored as the same document, which is pruned. -/
theorem Program.stored_form_reads_back {value : Json} {p : Program}
    (hread : ofDocument value = .ok p) :
    ∃ q, ofDocument p.graphicDocument = .ok q ∧ p.KeptAs q ∧
      q.graphicDocument = p.graphicDocument ∧ Everywhere IsPruned none p.graphicDocument :=
  ⟨p.stored, ofDocument_graphicDocument (readable_of_ofDocument hread), p.keptAs_stored,
    p.graphicDocument_stored, p.pruned_graphicDocument⟩

/-- A step in which nothing is set, a control of an unknown type with an older searched object and
an empty second branch, and behind it a control that holds nothing. -/
theorem Program.blank_records_read_back :
    ∃ p, ofDocument (.obj [("pick", .obj []), ("control", .obj [("control_type", .str "Wait"),
        ("event", .obj [("find_object", .str "cup"), ("find_object_id", .int 7)]),
        ("otherwise", .arr []), ("control", .obj [("event", .obj [])])])]) = .ok p ∧
      p.controls.length = 2 ∧ p.steps.pick = some .blank ∧
      ∃ q, ofDocument p.graphicDocument = .ok q ∧ p.KeptAs q ∧
        q.graphicDocument = p.graphicDocument ∧ Everywhere IsPruned none p.graphicDocument := by
  refine ⟨⟨⟨some .blank, none, none⟩,
    [⟨some (.other "Wait"), none, some ⟨none, some ⟨some "cup", some 7⟩⟩, some .empty, .empty⟩,
      ⟨none, none, some .blank, none, .empty⟩]⟩, ?_, rfl, rfl, ?_⟩
  · rfl
  · exact stored_form_reads_back (by rfl : ofDocument (.obj [("pick", .obj []), ("control", .obj [
      ("control_type", .str "Wait"),
      ("event", .obj [("find_object", .str "cup"), ("find_object_id", .int 7)]),
      ("otherwise", .arr []), ("control", .obj [("event", .obj [])])])]) = _)

end TaskDiagram
