import TaskDiagram.Program.Document
import TaskDiagram.Proofs.Json.Fields
import TaskDiagram.Proofs.Program.Leaves
import TaskDiagram.Proofs.Program.Normal

/-! # Reading a stored program back

What is read from the stored form of a program is the program itself, up to records in
which nothing is set: events, second branches, and controls that nothing follows. Steps
and searched objects are kept as they are, set or not. A diagram cannot tell the program
that is read from the one that was stored.
-/

namespace TaskDiagram

/-! ## What is stored -/

/-- The type that is read where this one was written. -/
def ControlType.reread (type : ControlType) : ControlType := ofText type.text

/-- The type that is read where this one was written. -/
def EventType.reread (type : EventType) : EventType := ofText type.text

/-- A type that keeps its meaning when it is written as text. -/
def ControlType.Readable (type : ControlType) : Prop := ofText type.text = type

/-- A type that keeps its meaning when it is written as text. -/
def EventType.Readable (type : EventType) : Prop := ofText type.text = type

/-- A known type is read from its text. -/
theorem ControlType.Readable.of_known {type : ControlType} (h : type.isKnown = true) :
    type.Readable := by
  cases type with
  | other => cases h
  | _ => rfl

theorem EventType.Readable.of_known {type : EventType} (h : type.isKnown = true) :
    type.Readable := by
  cases type with
  | other => cases h
  | _ => rfl

/-- The types of a control keep their meaning when they are written as text. -/
structure Control.Readable (c : Control) : Prop where
  type : ∀ type ∈ c.type, type.Readable
  event : ∀ e ∈ c.event, ∀ type ∈ e.type, type.Readable

/-- The event with its type as it is read where it was written. -/
def Event.reread (e : Event) : Event := { e with type := e.type.map EventType.reread }

/-- The control with its types as they are read where they were written. -/
def Control.reread (c : Control) : Control :=
  { c with type := c.type.map ControlType.reread, event := c.event.map Event.reread }

/-- The program with its types as they are read where they were written. -/
def Program.reread (p : Program) : Program := ⟨p.steps, p.controls.map Control.reread⟩

theorem Event.reread_eq {e : Event} (h : ∀ type ∈ e.type, type.Readable) : e.reread = e := by
  have htype : e.type.map EventType.reread = e.type := (Option.map_congr h).trans (by simp)
  rw [reread, htype]

/-- A control with readable types is read as it was written. -/
theorem Control.Readable.reread_eq {c : Control} (h : c.Readable) : c.reread = c := by
  have htype : c.type.map ControlType.reread = c.type := (Option.map_congr h.type).trans (by simp)
  have hevent : c.event.map Event.reread = c.event :=
    (Option.map_congr fun e he => Event.reread_eq (h.event e he)).trans (by simp)
  rw [reread, htype, hevent]

/-- A program with readable types is read as it was written. -/
theorem Program.reread_eq {p : Program} (h : ∀ c ∈ p.controls, c.Readable) : p.reread = p := by
  have hcontrols : p.controls.map Control.reread = p.controls :=
    (List.map_congr_left fun c hc => (h c hc).reread_eq).trans (List.map_id _)
  rw [reread, hcontrols]

namespace Control

/-- A control without the records in which nothing is set. -/
def stored (c : Control) : Control :=
  { c with
    event := c.event.filter (· ≠ .blank)
    otherwise := c.otherwise.filter (!·.isEmpty) }

/-- Controls without the records in which nothing is set; a control goes only when none is left
behind it. -/
def storedChain : List Control → List Control
  | [] => []
  | c :: rest =>
      if storedChain rest = [] ∧ c.stored = .empty then [] else c.stored :: storedChain rest

end Control

/-- A program without the records in which nothing is set. -/
def Program.stored (p : Program) : Program := ⟨p.steps, Control.storedChain p.controls⟩

theorem Event.reread_eq_blank_iff {e : Event} : e.reread = .blank ↔ e = .blank := by
  obtain ⟨type, findObject⟩ := e
  simp [reread, blank]

/-- Types are all that changes when a control is read where it was written. -/
theorem Control.stored_reread (c : Control) : c.reread.stored = c.stored.reread := by
  have hevent : (c.event.map Event.reread).filter (· ≠ .blank) =
      (c.event.filter (· ≠ .blank)).map Event.reread := by
    cases c.event with
    | none => rfl
    | some e => by_cases he : e = .blank <;> simp [Option.filter, Event.reread_eq_blank_iff, he]
  simp only [stored, reread, hevent]

theorem Control.reread_eq_empty_iff {c : Control} : c.reread = .empty ↔ c = .empty := by
  obtain ⟨type, times, event, otherwise, steps⟩ := c
  simp [reread, empty]

/-- How types are read does not decide what is stored. -/
theorem Control.storedChain_reread (cs : List Control) :
    storedChain (cs.map reread) = (storedChain cs).map reread := by
  induction cs with
  | nil => rfl
  | cons c rest ih =>
      rw [List.map_cons, storedChain, storedChain, ih, stored_reread]
      simp only [reread_eq_empty_iff, List.map_eq_nil_iff]
      split <;> rfl

/-! ## Writing -/

section Writing

open Json

theorem Reference.setEntries_eq (kind : LibraryKind) (r : Reference) : r.setEntries kind =
    optionalEntry kind.name .str r.name ++
      optionalEntry (Reference.idKey kind) (.int ·.toInt) r.id := rfl

theorem Event.setEntries_eq_nil {e : Event} : e.setEntries = [] ↔ e = .blank := by
  obtain ⟨type, findObject⟩ := e
  cases type <;> cases findObject <;> simp [Event.setEntries, optionalEntry, Event.blank]

theorem Steps.isEmpty_iff {s : Steps} : s.isEmpty = true ↔ s = .empty := by
  obtain ⟨pick, processing, place⟩ := s
  simp [isEmpty, empty, and_assoc]

theorem Steps.setEntries_eq_nil {s : Steps} : s.setEntries = [] ↔ s.isEmpty = true := by
  obtain ⟨pick, processing, place⟩ := s
  cases pick <;> cases processing <;> cases place <;>
    simp [Steps.setEntries, optionalEntry, Steps.isEmpty]

/-- A record in which nothing is set is not written. -/
theorem nonemptyEntry_eq {α : Type} {key : String} {entries : α → Entries} (keep : α → Bool)
    (hkeep : ∀ a, entries a = [] ↔ keep a = false) (o : Option α) :
    nonemptyEntry key ((o.map entries).getD []) =
      optionalEntry key (fun a => .obj (entries a)) (o.filter keep) := by
  cases o with
  | none => rfl
  | some a =>
      cases hkept : keep a with
      | false => simp [(hkeep a).mpr hkept, nonemptyEntry, Option.filter, hkept, optionalEntry]
      | true =>
          have hne : entries a ≠ [] := by simp [hkeep, hkept]
          obtain ⟨first, rest, heq⟩ := List.exists_cons_of_ne_nil hne
          simp [heq, nonemptyEntry, Option.filter, hkept, optionalEntry]

/-- What is written of a control and those behind it, piece by piece. -/
theorem Control.chainEntries_cons (c : Control) (rest : List Control) :
    chainEntries (c :: rest) =
      nonemptyEntry "control" (chainEntries rest) ++
        optionalEntry "control_type" ControlType.toJson c.type ++
        optionalEntry "event" (fun e => .obj e.setEntries) c.stored.event ++
        optionalEntry "otherwise" (fun s => .obj s.setEntries) c.stored.otherwise ++
        c.steps.setEntries ++ optionalEntry "times" (.int ·.toInt) c.times := by
  rw [chainEntries, stored]
  dsimp only
  rw [nonemptyEntry_eq (· ≠ Event.blank) (by simp [Event.setEntries_eq_nil]),
    nonemptyEntry_eq (!·.isEmpty) (by simp [Steps.setEntries_eq_nil])]

/-- Nothing is written of controls exactly when none is stored. -/
theorem Control.chainEntries_eq_nil (cs : List Control) :
    chainEntries cs = [] ↔ storedChain cs = [] := by
  induction cs with
  | nil => exact ⟨fun _ => rfl, fun _ => rfl⟩
  | cons c rest ih =>
      have hrest : nonemptyEntry "control" (chainEntries rest) = [] ↔ storedChain rest = [] := by
        rw [← ih]
        cases chainEntries rest <;> simp [nonemptyEntry]
      have hoption : ∀ {α : Type} {key : String} {write : α → Json} {o : Option α},
          optionalEntry key write o = [] ↔ o = none := by
        intro α key write o
        cases o <;> simp [optionalEntry]
      have hempty : c.stored = .empty ↔ c.type = none ∧ c.times = none ∧ c.stored.event = none ∧
          c.stored.otherwise = none ∧ c.steps = .empty := by
        simp [stored, empty]
      simp only [chainEntries_cons, List.append_eq_nil_iff, hrest, hoption, storedChain, hempty,
        Steps.setEntries_eq_nil, Steps.isEmpty_iff, ite_eq_left_iff, reduceCtorEq, imp_false,
        not_not]
      tauto

/-- The record of the controls behind one is written when any of it is stored. -/
theorem Control.nonemptyEntry_chainEntries (cs : List Control) :
    nonemptyEntry "control" (chainEntries cs) =
      optionalEntry "control" (fun cs => .obj (chainEntries cs))
        (if storedChain cs = [] then none else some cs) := by
  have hiff := chainEntries_eq_nil cs
  split
  next h => rw [hiff.mpr h]; rfl
  next h =>
    obtain ⟨first, rest, heq⟩ := List.exists_cons_of_ne_nil (mt hiff.mp h)
    simp [heq, nonemptyEntry, optionalEntry]

end Writing

/-! ## Reading -/

section Reading

open Fields Json

theorem decode_text (s : String) : Json.str s ≠ .null ∧ Decode.text (.str s) = .ok s := ⟨nofun, rfl⟩

theorem decode_int64 (n : Int64) :
    Json.int n.toInt ≠ .null ∧ Decode.int64 (.int n.toInt) = .ok n := by
  refine ⟨nofun, ?_⟩
  have hlow : Decimal.minInt64 ≤ n.toInt := n.le_toInt
  have hhigh : n.toInt ≤ Decimal.maxInt64 := n.toInt_le
  simp [Decode.int64, Decode.intWithin, hlow, hhigh, Except.map]

/-- Values that are written as records are written as something. -/
theorem obj_ne_null (entries : Entries) : Json.obj entries ≠ .null := nofun

/-! ### Records field by field

A record is read when each of its fields is, in whatever form they are written. -/

/-- A reference is read when its name and its id are. -/
theorem Reference.decode_of_fields {kind : LibraryKind} {entries : Entries} {r : Reference}
    (hname : (Fields.optional kind.name Decode.text).ofEntries entries = .ok r.name)
    (hid : (Fields.optional (idKey kind) Decode.int64).ofEntries entries = .ok r.id) :
    Reference.decode kind (.obj entries) = .ok r :=
  read_obj _ (ofEntries_seq (ofEntries_map mk hname) hid)

/-- Written forms have the searched object as a record, and no id beside it. -/
theorem Event.decode_of_fields {entries : Entries} {e : Event}
    (htype : (Fields.optional "event_type" EventType.decode).ofEntries entries = .ok e.type)
    (htarget : (Fields.optional "find_object" Target.decode).ofEntries entries =
      .ok (e.findObject.map .reference))
    (hid : (Fields.optional "find_object_id" Decode.int64).ofEntries entries = .ok none) :
    Event.decode (.obj entries) = .ok e := by
  have hread := ofEntries_seq
    (ofEntries_seq
      (ofEntries_map (fun type target id => (⟨type, resolveTarget target id⟩ : Event)) htype)
      htarget)
    hid
  have hresolve : resolveTarget (e.findObject.map .reference) none = e.findObject := by
    cases e.findObject <;> rfl
  rw [hresolve] at hread
  exact read_obj _ hread

theorem Steps.ofEntries_of_fields {entries : Entries} {longer : Option String} {s : Steps}
    (hstep : ∀ kind : StepKind,
      (Fields.optionalAs kind.name (longer.toList.map (· ++ kind.name))
        (Reference.decode kind.entity)).ofEntries entries = .ok (s.get kind)) :
    (Steps.fields longer).ofEntries entries = .ok s :=
  ofEntries_seq (ofEntries_seq (ofEntries_map mk (hstep .pick)) (hstep .processing)) (hstep .place)

/-- A control is read when its leaves and records are, and those behind it as one record. -/
theorem Control.decodeChain_of_fields {depth : Nat} {entries : Entries} {c : Control}
    {behind : Option (List Control)}
    (htype : (Fields.optional "control_type" ControlType.decode).ofEntries entries = .ok c.type)
    (htimes : (Fields.optional "times" Decode.int64).ofEntries entries = .ok c.times)
    (hevent : (Fields.optional "event" Event.decode).ofEntries entries = .ok c.event)
    (hotherwise : (Fields.optional "otherwise" Steps.decode).ofEntries entries = .ok c.otherwise)
    (hsteps : (Steps.fields (some "control_")).ofEntries entries = .ok c.steps)
    (hbehind : (Fields.optional "control" (decodeChain depth)).ofEntries entries = .ok behind) :
    decodeChain (depth + 1) (.obj entries) = .ok (c :: behind.getD []) :=
  read_obj _ (ofEntries_seq (ofEntries_seq (ofEntries_seq (ofEntries_seq (ofEntries_seq
    (ofEntries_map
      (fun type times event otherwise steps (next : Option (List Control)) =>
        (⟨type, times, event, otherwise, steps⟩ : Control) :: next.getD [])
      htype) htimes) hevent) hotherwise) hsteps) hbehind)

/-- A program is read when its steps and its chain of controls are. -/
theorem Program.decode_of_fields {entries : Entries} {steps : Steps}
    {controls : Option (List Control)}
    (hsteps : (Steps.fields none).ofEntries entries = .ok steps)
    (hcontrols : (Fields.optional "control" Control.decode).ofEntries entries = .ok controls) :
    decode (.obj entries) = .ok ⟨steps, controls.getD []⟩ :=
  read_obj _ (ofEntries_seq
    (ofEntries_map (fun steps (controls : Option (List Control)) =>
      (⟨steps, controls.getD []⟩ : Program)) hsteps) hcontrols)

/-! ### The stored form -/

/-- A reference is read back from its record. -/
theorem Reference.decode_setEntries (kind : LibraryKind) (r : Reference) :
    Reference.decode kind (.obj (r.setEntries kind)) = .ok r := by
  have hname : valuesUnder [kind.name] (r.setEntries kind) = (r.name.map Json.str).toList := by
    rw [setEntries_eq]
    cases kind <;> simp [writtenUnder, LibraryKind.name, idKey]
  have hid : valuesUnder [idKey kind] (r.setEntries kind) =
      (r.id.map fun n : Int64 => Json.int n.toInt).toList := by
    rw [setEntries_eq]
    cases kind <;> simp [writtenUnder, LibraryKind.name, idKey]
  exact decode_of_fields (ofEntries_optionalAs_self hname fun s _ => decode_text s)
    (ofEntries_optionalAs_self hid fun n _ => decode_int64 n)

theorem ControlType.decode_toJson (type : ControlType) :
    type.toJson ≠ .null ∧ decode type.toJson = .ok type.reread := ⟨nofun, rfl⟩

theorem EventType.decode_toJson (type : EventType) :
    type.toJson ≠ .null ∧ decode type.toJson = .ok type.reread := ⟨nofun, rfl⟩

theorem Event.decode_target (r : Reference) :
    Target.decode (.obj (r.setEntries .object)) = .ok (.reference r) := by
  simp only [Target.decode, Reference.decode_setEntries]

/-- An event is read back from its record, but for how its type is read. -/
theorem Event.decode_setEntries (e : Event) : Event.decode (.obj e.setEntries) = .ok e.reread := by
  have htype : valuesUnder ["event_type"] e.setEntries = (e.type.map EventType.toJson).toList := by
    simp [setEntries, writtenUnder]
  have htarget : valuesUnder ["find_object"] e.setEntries =
      (e.findObject.map fun r => Json.obj (r.setEntries .object)).toList := by
    simp [setEntries, writtenUnder]
  have hid : valuesUnder ["find_object_id"] e.setEntries =
      ((none : Option Int64).map fun n => Json.int n.toInt).toList := by
    simp [setEntries, writtenUnder]
  exact decode_of_fields (e := e.reread)
    (ofEntries_optionalAs htype fun type _ => type.decode_toJson)
    (ofEntries_optionalAs htarget fun r _ => ⟨obj_ne_null _, decode_target r⟩)
    (ofEntries_optionalAs_self hid fun n _ => decode_int64 n)

/-- Steps are read from their entries, whatever stands around them. -/
theorem Steps.ofEntries_fields {s : Steps} {entries : Entries} {longer : Option String}
    (hvalues : ∀ kind : StepKind,
      valuesUnder (kind.name :: longer.toList.map (· ++ kind.name)) entries =
        ((s.get kind).map fun r => Json.obj (r.setEntries kind.entity)).toList) :
    (Steps.fields longer).ofEntries entries = .ok s :=
  ofEntries_of_fields fun kind => ofEntries_optionalAs_self (hvalues kind) fun r _ =>
    ⟨obj_ne_null _, Reference.decode_setEntries kind.entity r⟩

/-- Steps are read back from their record. -/
theorem Steps.decode_setEntries (s : Steps) : Steps.decode (.obj s.setEntries) = .ok s := by
  apply read_obj
  apply Steps.ofEntries_fields
  intro kind
  cases kind <;> simp [setEntries, writtenUnder, StepKind.name, get, StepKind.entity]

section Chain

variable (c : Control) (rest : List Control)

/-- What is written of a control under some keys, record by record. -/
theorem Control.valuesUnder_chainEntries (keys : List String) :
    valuesUnder keys (chainEntries (c :: rest)) =
      writtenUnder "control" (fun cs => .obj (chainEntries cs)) keys
          (if storedChain rest = [] then none else some rest) ++
        writtenUnder "control_type" ControlType.toJson keys c.type ++
        writtenUnder "event" (fun e => .obj e.setEntries) keys c.stored.event ++
        writtenUnder "otherwise" (fun s => .obj s.setEntries) keys c.stored.otherwise ++
        valuesUnder keys c.steps.setEntries ++
        writtenUnder "times" (.int ·.toInt) keys c.times := by
  rw [chainEntries_cons, nonemptyEntry_chainEntries]
  simp only [valuesUnder_append, valuesUnder_optionalEntry]

/-- What is written of steps under some keys, step by step. -/
theorem Steps.valuesUnder_setEntries (s : Steps) (keys : List String) :
    valuesUnder keys s.setEntries =
      writtenUnder "pick" (fun r => .obj (r.setEntries .object)) keys s.pick ++
        writtenUnder "place" (fun r => .obj (r.setEntries .location)) keys s.place ++
        writtenUnder "processing" (fun r => .obj (r.setEntries .action)) keys s.processing := by
  simp only [setEntries, valuesUnder_append, valuesUnder_optionalEntry]

end Chain

/-- A control is read before those behind it, which are read as they are on their own. -/
theorem Control.decode_chainEntries_cons (c : Control) {rest : List Control} {depth : Nat}
    (hrest : storedChain rest ≠ [] →
      decodeChain depth (.obj (chainEntries rest)) = .ok ((storedChain rest).map reread)) :
    decodeChain (depth + 1) (.obj (chainEntries (c :: rest))) =
      .ok (c.stored.reread :: (storedChain rest).map reread) := by
  have hvalues := valuesUnder_chainEntries c rest
  simp only [Steps.valuesUnder_setEntries] at hvalues
  -- Each field is written under its own key alone.
  have htype : (Fields.optional "control_type" ControlType.decode).ofEntries
      (chainEntries (c :: rest)) = .ok (c.type.map ControlType.reread) :=
    ofEntries_optionalAs (by simp [hvalues, writtenUnder]) fun type _ => type.decode_toJson
  have htimes : (Fields.optional "times" Decode.int64).ofEntries (chainEntries (c :: rest)) =
      .ok c.times :=
    ofEntries_optionalAs_self (by simp [hvalues, writtenUnder]) fun n _ => decode_int64 n
  have hevent : (Fields.optional "event" Event.decode).ofEntries (chainEntries (c :: rest)) =
      .ok (c.stored.event.map Event.reread) :=
    ofEntries_optionalAs (by simp [hvalues, writtenUnder]) fun e _ =>
      ⟨obj_ne_null _, e.decode_setEntries⟩
  have hotherwise : (Fields.optional "otherwise" Steps.decode).ofEntries
      (chainEntries (c :: rest)) = .ok c.stored.otherwise :=
    ofEntries_optionalAs_self (by simp [hvalues, writtenUnder]) fun s _ =>
      ⟨obj_ne_null _, Steps.decode_setEntries s⟩
  have hsteps : (Steps.fields (some "control_")).ofEntries (chainEntries (c :: rest)) =
      .ok c.steps := by
    apply Steps.ofEntries_fields
    intro kind
    cases kind <;> simp [hvalues, writtenUnder, StepKind.name, Steps.get, StepKind.entity]
  have hbehind : valuesUnder ["control"] (chainEntries (c :: rest)) =
      ((if storedChain rest = [] then none else some rest).map fun behind =>
        Json.obj (chainEntries behind)).toList := by
    simp [hvalues, writtenUnder]
  have hnext : (Fields.optional "control" (decodeChain depth)).ofEntries
      (chainEntries (c :: rest)) =
        .ok ((if storedChain rest = [] then none else some rest).map fun behind =>
          (storedChain behind).map reread) := by
    apply ofEntries_optionalAs hbehind
    intro behind hmem
    split at hmem
    next => cases hmem
    next hne =>
      obtain rfl := Option.some.inj hmem
      exact ⟨obj_ne_null _, hrest hne⟩
  have hread := decodeChain_of_fields (c := c.stored.reread) htype htimes hevent hotherwise
    hsteps hnext
  refine hread.trans ?_
  by_cases hne : storedChain rest = [] <;> simp [hne]

/-- A control is stored when it or one behind it is. -/
theorem Control.storedChain_cons {c : Control} {rest : List Control}
    (hstored : storedChain (c :: rest) ≠ []) :
    storedChain (c :: rest) = c.stored :: storedChain rest := by
  rw [storedChain] at hstored ⊢
  split at hstored
  next => exact absurd rfl hstored
  next hkept => rw [if_neg hkept]

/-- A chain of controls is read back when the reader goes down as far as it is stored. -/
theorem Control.decode_chainEntries {cs : List Control} {depth : Nat}
    (hdepth : (storedChain cs).length ≤ depth) (hstored : storedChain cs ≠ []) :
    decodeChain depth (.obj (chainEntries cs)) = .ok ((storedChain cs).map reread) := by
  induction cs generalizing depth with
  | nil => exact absurd rfl hstored
  | cons c rest ih =>
      rw [storedChain_cons hstored, List.length_cons] at hdepth
      obtain ⟨depth, rfl⟩ : ∃ k, depth = k + 1 := ⟨depth - 1, by omega⟩
      rw [storedChain_cons hstored]
      exact decode_chainEntries_cons c (ih (by omega))

/-- Entries that follow one another are as deep as the deeper part. -/
theorem heightEntries_append (left right : Entries) :
    heightEntries (left ++ right) = max (heightEntries left) (heightEntries right) := by
  induction left with
  | nil => simp [heightEntries]
  | cons entry rest ih =>
      obtain ⟨key, value⟩ := entry
      rw [List.cons_append, heightEntries, heightEntries, ih, Nat.max_assoc]

/-- A value is as deep as the chain that is written in it is long. -/
theorem Control.length_le_height (cs : List Control) :
    (storedChain cs).length ≤ (Json.obj (chainEntries cs)).height := by
  induction cs with
  | nil => simp [storedChain]
  | cons c rest ih =>
      by_cases hstored : storedChain (c :: rest) = []
      · simp [hstored]
      · rw [storedChain_cons hstored, List.length_cons, chainEntries_cons,
          nonemptyEntry_chainEntries]
        simp only [height, heightEntries_append]
        split
        next hnone => simp [hnone]
        next hne =>
          simp only [optionalEntry, heightEntries]
          omega

/-- The stored form is read without the record around it, too. -/
theorem Program.decode_setEntries (p : Program) :
    decode (.obj (nonemptyEntry "control" (Control.chainEntries p.controls) ++
      p.steps.setEntries)) = .ok p.reread.stored := by
  have hvalues : ∀ keys, valuesUnder keys
      (nonemptyEntry "control" (Control.chainEntries p.controls) ++ p.steps.setEntries) =
        writtenUnder "control" (fun cs => .obj (Control.chainEntries cs)) keys
          (if Control.storedChain p.controls = [] then none else some p.controls) ++
        valuesUnder keys p.steps.setEntries := by
    intro keys
    rw [Control.nonemptyEntry_chainEntries, valuesUnder_append, valuesUnder_optionalEntry]
  simp only [Steps.valuesUnder_setEntries] at hvalues
  have hsteps : (Steps.fields none).ofEntries
      (nonemptyEntry "control" (Control.chainEntries p.controls) ++ p.steps.setEntries) =
        .ok p.steps := by
    apply Steps.ofEntries_fields
    intro kind
    cases kind <;> simp [hvalues, writtenUnder, StepKind.name, Steps.get, StepKind.entity]
  have hchain : valuesUnder ["control"]
      (nonemptyEntry "control" (Control.chainEntries p.controls) ++ p.steps.setEntries) =
        ((if Control.storedChain p.controls = [] then none else some p.controls).map fun cs =>
          Json.obj (Control.chainEntries cs)).toList := by
    simp [hvalues, writtenUnder]
  have hcontrols : (Fields.optional "control" Control.decode).ofEntries
      (nonemptyEntry "control" (Control.chainEntries p.controls) ++ p.steps.setEntries) =
        .ok ((if Control.storedChain p.controls = [] then none else some p.controls).map fun cs =>
          (Control.storedChain cs).map Control.reread) := by
    apply ofEntries_optionalAs hchain
    intro cs hcs
    split at hcs
    next => cases hcs
    next hne =>
      obtain rfl := Option.some.inj hcs
      refine ⟨obj_ne_null _, Control.decode_chainEntries ?_ hne⟩
      exact Nat.le_succ_of_le (Control.length_le_height p.controls)
  refine (decode_of_fields hsteps hcontrols).trans ?_
  rw [stored, reread, Control.storedChain_reread]
  by_cases hne : Control.storedChain p.controls = [] <;> simp [hne]

/-- What is read from the stored form of a program is the program without the records in which
nothing is set, and with its types as they are read from their texts. -/
theorem Program.read_graphicDocument (p : Program) :
    ofDocument p.graphicDocument = .ok p.reread.stored := by
  have henvelope : decodeEnvelope p.graphicDocument = .ok p.reread.stored :=
    read_obj _ (ofEntries_field_of_singleton (by simp [valuesUnder]) p.decode_setEntries)
  have hkey : p.graphicDocument.hasKey "program" = true := by
    simp [graphicDocument, envelope, hasKey]
  simp only [ofDocument, hkey, if_true, henvelope]

/-- A program with readable types is read back as what is stored of it. -/
theorem Program.ofDocument_graphicDocument {p : Program} (h : ∀ c ∈ p.controls, c.Readable) :
    ofDocument p.graphicDocument = .ok p.stored := by
  rw [read_graphicDocument, reread_eq h]

end Reading

/-! ## Loading what is read -/

theorem Control.kind?_stored (c : Control) : c.stored.kind? = c.kind? := rfl

/-- A record that is dropped counts like the one that stands for none. -/
theorem getD_map_filter {α β : Type} {keep : α → Bool} {f : α → β} {d : β}
    (h : ∀ a, keep a = false → f a = d) (o : Option α) :
    ((o.filter keep).map f).getD d = (o.map f).getD d := by
  cases o with
  | none => rfl
  | some a => cases hkeep : keep a <;> simp [Option.filter, hkeep, h]

theorem Event.eq_blank_of_dropped {e : Event} (h : decide (e ≠ .blank) = false) : e = .blank := by
  simpa using h

theorem Steps.eq_empty_of_dropped {s : Steps} (h : (!s.isEmpty) = false) : s = .empty :=
  isEmpty_iff.mp (by simpa using h)

theorem Control.otherwise_stored (c : Control) :
    c.stored.otherwise.getD .empty = c.otherwise.getD .empty := by
  have hdropped :=
    getD_map_filter (f := id) (fun s hs => Steps.eq_empty_of_dropped hs) c.otherwise
  simpa [stored] using hdropped

/-- No leaf is left out with the records in which nothing is set. -/
theorem Control.leaf?_stored (c : Control) (leaf : ControlLeaf) :
    c.stored.leaf? leaf = c.leaf? leaf := by
  have hevent : ∀ {α : Type} (f : Event → Option α), f .blank = none →
      c.stored.event.bind f = c.event.bind f := by
    intro α f hblank
    cases hevent : c.event with
    | none => simp [stored, hevent]
    | some e => by_cases he : e = .blank <;> simp [stored, hevent, Option.filter, he, hblank]
  cases leaf with
  | eventType => exact congrArg (Option.map LeafValue.eventType) (hevent (·.type) rfl)
  | target leaf =>
      have htarget : c.stored.event.bind (·.findObject) = c.event.bind (·.findObject) :=
        hevent (·.findObject) rfl
      exact congrArg (·.bind (·.leaf? leaf)) htarget
  | otherwise kind leaf =>
      have hleaf := Steps.leaf?_getD c.stored.otherwise kind leaf
      rw [c.otherwise_stored, Steps.leaf?_getD] at hleaf
      exact hleaf.symm
  | _ => rfl

/-- A diagram holds the same of a control with and without records in which nothing is set. -/
theorem Control.normal?_stored (c : Control) : c.stored.normal? = c.normal? := by
  have hevent : (c.stored.event.map Event.normal).getD .blank =
      (c.event.map Event.normal).getD .blank :=
    getD_map_filter (fun e he => by rw [Event.eq_blank_of_dropped he]; rfl) c.event
  unfold normal?
  rw [kind?_stored]
  congr 1
  funext kind
  congr 1
  funext type
  unfold normalAs
  rw [hevent, otherwise_stored]
  rfl

theorem Control.isUnset_stored (c : Control) : c.stored.isUnset = c.isUnset :=
  isUnset_congr c.leaf?_stored

theorem Control.loose_stored (c : Control) : c.stored.loose = c.loose := by
  unfold loose
  rw [kind?_stored, isUnset_stored]
  rfl

/-- What is gathered from controls, and not from those in which nothing is set, is gathered from
those that are stored. -/
theorem Control.flatMap_storedChain {α : Type} {f : Control → List α}
    (hstored : ∀ c, f c.stored = f c) (hempty : f .empty = []) (cs : List Control) :
    (storedChain cs).flatMap f = cs.flatMap f := by
  induction cs with
  | nil => rfl
  | cons c rest ih =>
      rw [storedChain]
      split
      next hnone =>
        obtain ⟨hrest, hc⟩ := hnone
        rw [hrest] at ih
        rw [List.flatMap_cons, ← ih, ← hstored, hc, hempty]
        rfl
      next => simp [ih, hstored]

/-- What is kept of controls, and not of those in which nothing is set, is kept of those that are
stored. -/
theorem Control.filterMap_storedChain {α : Type} {f : Control → Option α}
    (hstored : ∀ c, f c.stored = f c) (hempty : f .empty = none) (cs : List Control) :
    (storedChain cs).filterMap f = cs.filterMap f := by
  simp only [List.filterMap_eq_flatMap_toList]
  exact flatMap_storedChain (fun c => by rw [hstored]) (by rw [hempty]; rfl) cs

/-- A diagram cannot tell a program from the one that is read back for it. -/
theorem Program.normal_stored (p : Program) : p.stored.normal = p.normal := by
  have hlead : p.steps.leadTo (Control.storedChain p.controls) = p.steps.leadTo p.controls := by
    unfold Steps.leadTo
    rw [← List.head?_filterMap, ← List.head?_filterMap,
      Control.filterMap_storedChain Control.kind?_stored rfl]
  unfold normal stored
  dsimp only
  rw [hlead, Control.flatMap_storedChain Control.loose_stored rfl,
    Control.filterMap_storedChain Control.normal?_stored rfl]

end TaskDiagram
