import TaskDiagram.Proofs.Json.Printed
import TaskDiagram.Proofs.Program.StoredForm

/-! # How deep a stored program is nested

The document of a program is as deep as its chain of controls is long, and two to four levels more.
Its text is read back as long as a reader goes down so far, and not at all otherwise: programs of up
to 123 controls can be read, and those of 126 controls or more are lost.
-/

namespace TaskDiagram

open Json

namespace Json

/-- Numbers are whole and fit 64 bits. -/
def IsPlain (_ : Option String) : Json → Prop
  | .int n => FitsWord n
  | .float _ => False
  | _ => True

/-- Whole numbers that fit 64 bits can be written and read. -/
theorem IsPlain.isLegible {key : Option String} {v : Json} (h : IsPlain key v) :
    IsLegible key v := by
  cases v with
  | float x => exact absurd h id
  | int n => exact h
  | _ => trivial

section WithoutDoubles

variable (f : Float → Float)

mutual

/-- Where there are no doubles, a change of the doubles changes nothing. -/
theorem mapFloats_of_plain : ∀ (key : Option String) (v : Json), Everywhere IsPlain key v →
    v.mapFloats f = v
  | _, .null, _ => rfl
  | _, .bool _, _ => rfl
  | _, .int _, _ => rfl
  | _, .str _, _ => rfl
  | _, .float _, h => absurd h id
  | _, .arr items, ⟨_, hitems⟩ => congrArg Json.arr (mapItems_of_plain items hitems)
  | _, .obj entries, ⟨_, hentries⟩ => congrArg Json.obj (mapEntries_of_plain entries hentries)

theorem mapItems_of_plain : ∀ items : List Json, EveryItem IsPlain items →
    mapItems f items = items
  | [], _ => rfl
  | item :: rest, ⟨hitem, hrest⟩ => by
      rw [mapItems, mapFloats_of_plain none item hitem, mapItems_of_plain rest hrest]

theorem mapEntries_of_plain : ∀ entries : Entries, EveryEntry IsPlain entries →
    mapEntries f entries = entries
  | [], _ => rfl
  | (key, value) :: rest, ⟨hvalue, hrest⟩ => by
      rw [mapEntries, mapFloats_of_plain (some key) value hvalue, mapEntries_of_plain rest hrest]

end

end WithoutDoubles

/-- A value without doubles is read back from its text unless it is nested too deep. -/
theorem read_compact_of_plain {v : Json} (h : Everywhere IsPlain none v) :
    read v.compact = if v.height ≤ maxDepth then .ok v else .error .malformed := by
  rw [read_compact (h.imp fun _ _ => IsPlain.isLegible), mapFloats_of_plain _ none v h]

/-- A record that may be left out makes a document no deeper than it is. -/
theorem heightEntries_optionalEntry_le {α : Type} {key : String} {write : α → Json}
    {o : Option α} {n : Nat} (h : ∀ a ∈ o, (write a).height ≤ n) :
    heightEntries (optionalEntry key write o) ≤ n := by
  cases o with
  | none => exact Nat.zero_le n
  | some a => simpa [optionalEntry, heightEntries] using h a rfl

end Json

theorem plain_nonemptyEntry {key : String} {entries : Entries} (h : EveryEntry IsPlain entries) :
    EveryEntry IsPlain (nonemptyEntry key entries) := by
  cases entries with
  | nil => trivial
  | cons entry rest => exact ⟨⟨trivial, h⟩, trivial⟩

/-- A record that is left out when it is empty adds one level at most. -/
theorem heightEntries_nonemptyEntry_le {key : String} {entries : Entries} {n : Nat}
    (h : heightEntries entries ≤ n) : heightEntries (nonemptyEntry key entries) ≤ n + 1 := by
  cases entries with
  | nil => exact Nat.zero_le _
  | cons entry rest =>
      simp only [nonemptyEntry, heightEntries, height] at h ⊢
      omega

/-! ## References, events, steps -/

namespace Reference

/-- The leaves of a reference are a name and a number. -/
theorem plain_setEntries (kind : LibraryKind) (r : Reference) :
    EveryEntry IsPlain (r.setEntries kind) := by
  rw [setEntries, everyEntry_append]
  exact ⟨everyEntry_optionalEntry fun _ _ => trivial,
    everyEntry_optionalEntry fun n _ => fitsWord_toInt n⟩

theorem plain_entry (kind : LibraryKind) (key : String) (o : Option Reference) :
    EveryEntry IsPlain (optionalEntry key (fun r => .obj (r.setEntries kind)) o) :=
  everyEntry_optionalEntry fun r _ => ⟨trivial, r.plain_setEntries kind⟩

theorem height_setEntries (kind : LibraryKind) (r : Reference) :
    heightEntries (r.setEntries kind) = 0 := by
  obtain ⟨name, id⟩ := r
  cases name <;> cases id <;> rfl

theorem height_entry_le (kind : LibraryKind) (key : String) (o : Option Reference) :
    heightEntries (optionalEntry key (fun r => .obj (r.setEntries kind)) o) ≤ 1 := by
  refine heightEntries_optionalEntry_le fun r _ => ?_
  rw [height, height_setEntries]

end Reference

namespace Event

theorem plain_setEntries (e : Event) : EveryEntry IsPlain e.setEntries := by
  rw [setEntries, everyEntry_append]
  exact ⟨everyEntry_optionalEntry fun _ _ => trivial, Reference.plain_entry ..⟩

/-- Below the record of an event there is at most that of its object. -/
theorem height_setEntries_le (e : Event) : heightEntries e.setEntries ≤ 1 := by
  rw [setEntries, heightEntries_append]
  exact Nat.max_le.mpr ⟨heightEntries_optionalEntry_le fun _ _ => Nat.zero_le 1,
    Reference.height_entry_le ..⟩

end Event

namespace Steps

theorem plain_setEntries (s : Steps) : EveryEntry IsPlain s.setEntries := by
  rw [setEntries, everyEntry_append, everyEntry_append]
  exact ⟨⟨Reference.plain_entry .., Reference.plain_entry ..⟩, Reference.plain_entry ..⟩

/-- Below the record of steps there are at most those of their references. -/
theorem height_setEntries_le (s : Steps) : heightEntries s.setEntries ≤ 1 := by
  rw [setEntries, heightEntries_append, heightEntries_append]
  exact Nat.max_le.mpr ⟨Nat.max_le.mpr ⟨Reference.height_entry_le .., Reference.height_entry_le ..⟩,
    Reference.height_entry_le ..⟩

end Steps

/-! ## Controls -/

namespace Control

/-- A document of controls has no double in it, however long the chain is. -/
theorem plain_chainEntries (cs : List Control) : EveryEntry IsPlain (chainEntries cs) := by
  induction cs with
  | nil => trivial
  | cons c rest ih =>
      have hevent : EveryEntry IsPlain ((c.event.map Event.setEntries).getD []) := by
        cases c.event with
        | none => trivial
        | some e => exact e.plain_setEntries
      have hotherwise : EveryEntry IsPlain ((c.otherwise.map Steps.setEntries).getD []) := by
        cases c.otherwise with
        | none => trivial
        | some s => exact s.plain_setEntries
      simp only [chainEntries, everyEntry_append]
      exact ⟨⟨⟨⟨⟨plain_nonemptyEntry ih, everyEntry_optionalEntry fun _ _ => trivial⟩,
        plain_nonemptyEntry hevent⟩, plain_nonemptyEntry hotherwise⟩, c.steps.plain_setEntries⟩,
        everyEntry_optionalEntry fun n _ => fitsWord_toInt n⟩

/-- Below the record of a control there is that of the next one, or an event or a second branch with
what they refer to. -/
theorem height_chainEntries_le (cs : List Control) :
    heightEntries (chainEntries cs) ≤ (storedChain cs).length + 1 := by
  induction cs with
  | nil => exact Nat.zero_le _
  | cons c rest ih =>
      by_cases hnone : storedChain (c :: rest) = []
      · rw [(chainEntries_eq_nil _).mpr hnone]
        exact Nat.zero_le _
      · have hevent : heightEntries ((c.event.map Event.setEntries).getD []) ≤ 1 := by
          cases c.event with
          | none => exact Nat.zero_le 1
          | some e => exact e.height_setEntries_le
        have hotherwise : heightEntries ((c.otherwise.map Steps.setEntries).getD []) ≤ 1 := by
          cases c.otherwise with
          | none => exact Nat.zero_le 1
          | some s => exact s.height_setEntries_le
        have htype : heightEntries (optionalEntry "control_type" ControlType.toJson c.type) ≤ 0 :=
          heightEntries_optionalEntry_le fun _ _ => Nat.le_refl 0
        have htimes : heightEntries (optionalEntry "times" (Json.int ·.toInt) c.times) ≤ 0 :=
          heightEntries_optionalEntry_le fun _ _ => Nat.le_refl 0
        have hnext := @heightEntries_nonemptyEntry_le "control" _ _ ih
        have hguard := @heightEntries_nonemptyEntry_le "event" _ _ hevent
        have hbranch := @heightEntries_nonemptyEntry_le "otherwise" _ _ hotherwise
        have hsteps := c.steps.height_setEntries_le
        rw [storedChain_cons hnone, List.length_cons]
        simp only [chainEntries, heightEntries_append, Nat.max_le]
        omega

/-- Storing leaves controls out and adds none. -/
theorem length_storedChain_le (cs : List Control) : (storedChain cs).length ≤ cs.length := by
  induction cs with
  | nil => exact Nat.le_refl 0
  | cons c rest ih =>
      rw [storedChain]
      split
      · exact Nat.zero_le _
      · exact Nat.succ_le_succ ih

end Control

/-! ## Programs -/

namespace Program

open Control (storedChain)

/-- A stored program has no double in it. -/
theorem plain_graphicDocument (p : Program) : Everywhere IsPlain none p.graphicDocument := by
  have hentries : EveryEntry IsPlain
      (nonemptyEntry "control" (Control.chainEntries p.controls) ++ p.steps.setEntries) :=
    everyEntry_append.mpr
      ⟨plain_nonemptyEntry (Control.plain_chainEntries _), p.steps.plain_setEntries⟩
  exact ⟨trivial, ⟨trivial, hentries⟩, trivial⟩

/-- The text of a stored program is read back unless it is nested too deep. -/
theorem read_compact_graphicDocument (p : Program) :
    Json.read p.graphicDocument.compact =
      if p.graphicDocument.height ≤ maxDepth then .ok p.graphicDocument else .error .malformed :=
  read_compact_of_plain p.plain_graphicDocument

/-- A stored program is as deep as its controls or its steps, and two levels more for itself and its
envelope. -/
theorem height_graphicDocument (p : Program) : p.graphicDocument.height =
    max (heightEntries (nonemptyEntry "control" (Control.chainEntries p.controls)))
      (heightEntries p.steps.setEntries) + 2 := by
  simp [graphicDocument, envelope, height, heightEntries, heightEntries_append]

/-- A stored program is at most four levels deeper than its chain of controls is long. -/
theorem height_graphicDocument_le (p : Program) :
    p.graphicDocument.height ≤ (storedChain p.controls).length + 4 := by
  have hchain := @heightEntries_nonemptyEntry_le "control" _ _
    (Control.height_chainEntries_le p.controls)
  have hsteps := p.steps.height_setEntries_le
  rw [height_graphicDocument]
  omega

/-- A stored program is at least two levels deeper than its chain of controls is long. -/
theorem le_height_graphicDocument (p : Program) :
    (storedChain p.controls).length + 2 ≤ p.graphicDocument.height := by
  have hchain := Control.length_le_height p.controls
  rw [height_graphicDocument]
  cases hentries : Control.chainEntries p.controls with
  | nil => simp [(Control.chainEntries_eq_nil _).mp hentries]
  | cons entry rest =>
      rw [hentries] at hchain
      simp only [nonemptyEntry, heightEntries] at hchain ⊢
      omega

/-- A program of up to 123 controls is always read back. -/
theorem fits_of_length_le {p : Program} (h : p.controls.length ≤ 123) :
    p.graphicDocument.height ≤ maxDepth := by
  have hstored := Control.length_storedChain_le p.controls
  have hheight := p.height_graphicDocument_le
  rw [maxDepth]
  omega

/-- A program of which 126 controls are stored is never read back. -/
theorem overflows_of_le_length {p : Program} (h : 126 ≤ (storedChain p.controls).length) :
    ¬ p.graphicDocument.height ≤ maxDepth := by
  have hheight := p.le_height_graphicDocument
  rw [maxDepth]
  omega

end Program

/-! ## Controls with nothing between them -/

/-- Records of controls nested in one another; the innermost control is to be repeated once. -/
def nestedEntries : Nat → Entries
  | 0 => [("times", .int 1)]
  | n + 1 => [("control", .obj (nestedEntries n))]

/-- The controls they stand for. -/
def nestedControls : Nat → List Control
  | 0 => [{ Control.empty with times := some 1 }]
  | n + 1 => .empty :: nestedControls n

theorem heightEntries_nestedEntries (n : Nat) : heightEntries (nestedEntries n) = n := by
  induction n with
  | zero => rfl
  | succ n ih => simp [nestedEntries, height, heightEntries, ih]

theorem plain_nestedEntries (n : Nat) : EveryEntry IsPlain (nestedEntries n) := by
  induction n with
  | zero => exact ⟨⟨by decide, by decide⟩, trivial⟩
  | succ n ih => exact ⟨⟨trivial, ih⟩, trivial⟩

/-- The text of the records is read as the records, as long as the reader goes down so far. -/
theorem read_nestedEntries {n : Nat} (h : n < maxDepth) :
    Json.read (Json.obj (nestedEntries n)).compact = .ok (.obj (nestedEntries n)) := by
  have hplain : Everywhere IsPlain none (.obj (nestedEntries n)) := ⟨trivial, plain_nestedEntries n⟩
  rw [read_compact_of_plain hplain, height, heightEntries_nestedEntries,
    if_pos (Nat.succ_le_of_lt h)]

/-- Each record has its keys in order already. -/
theorem canonical_nestedEntries (n : Nat) :
    (Json.obj (nestedEntries n)).canonical = .obj (nestedEntries n) := by
  induction n with
  | zero => rfl
  | succ n ih =>
      rw [nestedEntries, canonical, canonicalEntries, ih]
      rfl

/-- The controls are stored as these records. -/
theorem chainEntries_nestedControls (n : Nat) :
    Control.chainEntries (nestedControls n) = nestedEntries n := by
  induction n with
  | zero => rfl
  | succ n ih =>
      rw [nestedControls, Control.chainEntries, ih]
      cases n <;> rfl

theorem storedChain_nestedControls (n : Nat) :
    Control.storedChain (nestedControls n) = nestedControls n := by
  induction n with
  | zero => rfl
  | succ n ih =>
      have hne : nestedControls n ≠ [] := by cases n <;> exact List.cons_ne_nil _ _
      rw [nestedControls, Control.storedChain, ih, if_neg fun h => hne h.1]
      rfl

theorem length_nestedControls (n : Nat) : (nestedControls n).length = n + 1 := by
  induction n with
  | zero => rfl
  | succ n ih => rw [nestedControls, List.length_cons, ih]

theorem readable_nestedControls (n : Nat) : ∀ c ∈ nestedControls n, c.Readable := by
  induction n with
  | zero =>
    intro c hc
    obtain rfl := List.mem_singleton.mp hc
    exact ⟨nofun, nofun⟩
  | succ n ih => exact List.forall_mem_cons.mpr ⟨⟨nofun, nofun⟩, ih⟩

/-- The records by themselves are read as the controls. -/
theorem ofDocument_nestedEntries (n : Nat) :
    Program.ofDocument (.obj (nestedEntries (n + 1))) = .ok ⟨.empty, nestedControls n⟩ := by
  have hread := Program.decode_setEntries ⟨.empty, nestedControls n⟩
  rw [Program.reread_eq (readable_nestedControls n), Program.stored, storedChain_nestedControls,
    chainEntries_nestedControls] at hread
  cases n <;> exact hread

end TaskDiagram
