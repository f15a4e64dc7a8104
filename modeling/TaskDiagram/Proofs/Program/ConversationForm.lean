import TaskDiagram.Proofs.Program.Leaves
import TaskDiagram.Proofs.Program.Readable

/-! # Reading the conversation form back

The conversation form carries every record and names every leaf, unset ones as `null`. What is
read from it is the program it was made of with its records filled in: every step, event, searched
object and second branch is there, a program without controls has got one, and the leaves that
are set are the same. Filling in what is read changes nothing more.
-/

namespace TaskDiagram

/-! ## Reading what is written in full -/

section Reading

open Fields Json

/-- A reference is read back from its full record, unset leaves and all. -/
theorem Reference.decode_toJson (kind : LibraryKind) (r : Reference) :
    Reference.decode kind (r.toJson kind) = .ok r := by
  have hname : valuesUnder [kind.name]
      [(kind.name, ofOption .str r.name), (idKey kind, ofOption (.int ·.toInt) r.id)] =
        [ofOption .str r.name] := by
    cases kind <;> simp [valuesUnder, LibraryKind.name, idKey]
  have hid : valuesUnder [idKey kind]
      [(kind.name, ofOption .str r.name), (idKey kind, ofOption (.int ·.toInt) r.id)] =
        [ofOption (fun n : Int64 => .int n.toInt) r.id] := by
    cases kind <;> simp [valuesUnder, LibraryKind.name, idKey]
  exact decode_of_fields (ofEntries_nullable_self hname fun s _ => decode_text s)
    (ofEntries_nullable_self hid fun n _ => decode_int64 n)

theorem Event.decode_target_toJson (r : Reference) :
    Target.decode (r.toJson .object) = .ok (.reference r) := by
  have hread := Reference.decode_toJson .object r
  unfold Reference.toJson at hread ⊢
  simp only [Target.decode, hread]

/-- An event is read back from its full record, but for how its type is read. -/
theorem Event.decode_toJson (e : Event) : Event.decode e.toJson = .ok e.reread := by
  unfold toJson
  set entries := [("event_type", ofOption EventType.toJson e.type),
    ("find_object", ofOption (Reference.toJson .object) e.findObject)] with hentries
  have htype : valuesUnder ["event_type"] entries = [ofOption EventType.toJson e.type] := by
    simp [hentries, valuesUnder]
  have htarget : valuesUnder ["find_object"] entries =
      [ofOption (Reference.toJson .object) e.findObject] := by
    simp [hentries, valuesUnder]
  have hid : valuesUnder ["find_object_id"] entries = [] := by
    simp [hentries, valuesUnder]
  have hlone : (Fields.optional "find_object_id" Decode.int64).ofEntries entries = .ok none := by
    rw [Fields.optional, Fields.optionalAs]
    exact ofEntries_field_of_nil hid rfl
  exact decode_of_fields (e := e.reread)
    (ofEntries_nullable htype fun type _ => type.decode_toJson)
    (ofEntries_nullable htarget fun r _ => ⟨obj_ne_null _, decode_target_toJson r⟩) hlone

/-- Steps are read from their entries, whatever stands around them. -/
theorem Steps.ofEntries_fields_nullable {s : Steps} {entries : Entries} {longer : Option String}
    (hvalues : ∀ kind : StepKind,
      valuesUnder (kind.name :: longer.toList.map (· ++ kind.name)) entries =
        [ofOption (Reference.toJson kind.entity) (s.get kind)]) :
    (Steps.fields longer).ofEntries entries = .ok s :=
  ofEntries_of_fields fun kind => ofEntries_nullable_self (hvalues kind) fun r _ =>
    ⟨obj_ne_null _, Reference.decode_toJson kind.entity r⟩

/-- Steps are read back from their full record. -/
theorem Steps.decode_toJson (s : Steps) : Steps.decode s.toJson = .ok s := by
  apply read_obj
  apply Steps.ofEntries_fields_nullable
  intro kind
  cases kind <;> simp [valuesUnder, entries, StepKind.name, get, StepKind.entity]

theorem Event.toJson_ne_null (e : Event) : e.toJson ≠ .null := obj_ne_null _

theorem Steps.toJson_ne_null (s : Steps) : s.toJson ≠ .null := obj_ne_null _

/-- A chain that is there. -/
def Control.nonempty? (cs : List Control) : Option (List Control) :=
  if cs = [] then none else some cs

theorem Control.getD_map_nonempty? (f : Control → Control) (cs : List Control) :
    ((nonempty? cs).map (List.map f)).getD [] = cs.map f := by
  unfold nonempty?
  split
  next h => rw [h]; rfl
  next => rfl

theorem Control.chainToJson_eq (cs : List Control) :
    chainToJson cs = ofOption chainToJson (nonempty? cs) := by
  cases cs <;> rfl

theorem Control.chainToJson_ne_null {cs : List Control} (h : cs ≠ []) : chainToJson cs ≠ .null := by
  cases cs with
  | nil => exact absurd rfl h
  | cons c rest => exact nofun

/-- The chain of controls is read from its entry, whatever stands around it. -/
theorem Control.ofEntries_chain {decode : Decoder (List Control)} {cs : List Control}
    {entries : Entries} (hvalues : valuesUnder ["control"] entries = [chainToJson cs])
    (hdecode : cs ≠ [] → decode (chainToJson cs) = .ok (cs.map reread)) :
    (Fields.optional "control" decode).ofEntries entries =
      .ok ((nonempty? cs).map (List.map reread)) := by
  rw [chainToJson_eq] at hvalues
  apply ofEntries_nullable hvalues
  intro behind hbehind
  unfold nonempty? at hbehind
  split at hbehind
  next => cases hbehind
  next hne =>
    cases hbehind
    exact ⟨chainToJson_ne_null hne, hdecode hne⟩

/-- A control is read before those behind it, which are read as they are on their own. -/
theorem Control.decode_chainToJson_cons (c : Control) {rest : List Control} {depth : Nat}
    (hrest : rest ≠ [] → decodeChain depth (chainToJson rest) = .ok (rest.map reread)) :
    decodeChain (depth + 1) (chainToJson (c :: rest)) = .ok ((c :: rest).map reread) := by
  unfold chainToJson
  set entries := [("control", chainToJson rest),
    ("control_type", ofOption ControlType.toJson c.type),
    ("event", ofOption Event.toJson c.event),
    ("otherwise", ofOption Steps.toJson c.otherwise),
    ("pick", ofOption (Reference.toJson .object) c.steps.pick),
    ("place", ofOption (Reference.toJson .location) c.steps.place),
    ("processing", ofOption (Reference.toJson .action) c.steps.processing),
    ("times", ofOption (fun n : Int64 => .int n.toInt) c.times)] with hentries
  have htype : (Fields.optional "control_type" ControlType.decode).ofEntries entries =
      .ok (c.type.map ControlType.reread) :=
    ofEntries_nullable (by simp [hentries, valuesUnder]) fun type _ => type.decode_toJson
  have htimes : (Fields.optional "times" Decode.int64).ofEntries entries = .ok c.times :=
    ofEntries_nullable_self (by simp [hentries, valuesUnder]) fun n _ => decode_int64 n
  have hevent : (Fields.optional "event" Event.decode).ofEntries entries =
      .ok (c.event.map Event.reread) :=
    ofEntries_nullable (by simp [hentries, valuesUnder])
      fun e _ => ⟨e.toJson_ne_null, e.decode_toJson⟩
  have hotherwise : (Fields.optional "otherwise" Steps.decode).ofEntries entries =
      .ok c.otherwise :=
    ofEntries_nullable_self (by simp [hentries, valuesUnder])
      fun s _ => ⟨s.toJson_ne_null, s.decode_toJson⟩
  have hsteps : (Steps.fields (some "control_")).ofEntries entries = .ok c.steps := by
    apply Steps.ofEntries_fields_nullable
    intro kind
    cases kind <;> simp [hentries, valuesUnder, StepKind.name, Steps.get, StepKind.entity]
  have hnext : (Fields.optional "control" (decodeChain depth)).ofEntries entries =
      .ok ((nonempty? rest).map (List.map reread)) :=
    ofEntries_chain (by simp [hentries, valuesUnder]) hrest
  have hread := decodeChain_of_fields (c := c.reread) htype htimes hevent hotherwise hsteps hnext
  rwa [getD_map_nonempty?] at hread

/-- A chain of controls is read back when the reader goes down as far as it is long. -/
theorem Control.decode_chainToJson {cs : List Control} {depth : Nat} (hdepth : cs.length ≤ depth)
    (hne : cs ≠ []) : decodeChain depth (chainToJson cs) = .ok (cs.map reread) := by
  induction cs generalizing depth with
  | nil => exact absurd rfl hne
  | cons c rest ih =>
      rw [List.length_cons] at hdepth
      obtain ⟨depth, rfl⟩ : ∃ k, depth = k + 1 := ⟨depth - 1, by omega⟩
      exact decode_chainToJson_cons c (ih (by omega))

/-- A value is as deep as the chain that is written in it is long. -/
theorem Control.length_le_height_chainToJson (cs : List Control) :
    cs.length ≤ (chainToJson cs).height := by
  induction cs with
  | nil => exact Nat.le_refl 0
  | cons c rest ih =>
      simp only [chainToJson, height, heightEntries, List.length_cons]
      omega

theorem Program.decode_toJson (p : Program) : decode p.toJson = .ok p.reread := by
  unfold toJson
  set entries := [("control", Control.chainToJson p.controls),
    ("pick", ofOption (Reference.toJson .object) p.steps.pick),
    ("place", ofOption (Reference.toJson .location) p.steps.place),
    ("processing", ofOption (Reference.toJson .action) p.steps.processing)] with hentries
  have hsteps : (Steps.fields none).ofEntries entries = .ok p.steps := by
    apply Steps.ofEntries_fields_nullable
    intro kind
    cases kind <;> simp [hentries, valuesUnder, StepKind.name, Steps.get, StepKind.entity]
  have hcontrols : (Fields.optional "control" Control.decode).ofEntries entries =
      .ok ((Control.nonempty? p.controls).map (List.map Control.reread)) := by
    refine Control.ofEntries_chain (by simp [hentries, valuesUnder]) fun hne => ?_
    refine Control.decode_chainToJson ?_ hne
    exact Nat.le_succ_of_le (Control.length_le_height_chainToJson p.controls)
  have hread := decode_of_fields hsteps hcontrols
  rwa [Control.getD_map_nonempty?] at hread

/-- What is read where a program was written in full is the program, with its types as they are
read from their texts. -/
theorem Program.read_envelope_toJson (p : Program) :
    ofDocument (envelope p.toJson) = .ok p.reread := by
  have hread : decodeEnvelope (envelope p.toJson) = .ok p.reread :=
    read_obj _ (ofEntries_field_of_singleton (by simp [valuesUnder]) p.decode_toJson)
  have hkey : (envelope p.toJson).hasKey "program" = true := by
    simp [envelope, hasKey]
  simp only [ofDocument, hkey, if_true, hread]

/-- A program whose types are readable is read back from its full form. -/
theorem Program.ofDocument_envelope_toJson {p : Program} (h : Control.ReadableChain p.controls) :
    ofDocument (envelope p.toJson) = .ok p := by
  rw [read_envelope_toJson, reread_eq h]

end Reading

/-! ## What is filled in -/

/-- Every step is there. -/
def Steps.Complete (s : Steps) : Prop := ∀ kind, (s.get kind).isSome

/-- Every record of a control is there. -/
structure Control.Complete (c : Control) : Prop where
  steps : c.steps.Complete
  otherwise : ∃ s ∈ c.otherwise, s.Complete
  event : ∃ e ∈ c.event, e.findObject.isSome

/-- Every record of a program is there, at least one control among them. -/
structure Program.Complete (p : Program) : Prop where
  steps : p.steps.Complete
  control : p.controls ≠ []
  controls : ∀ c ∈ p.controls, c.Complete

open Control.filled (fill)

theorem Steps.complete_fill (s : Steps) : (fill s).Complete := by
  intro kind
  cases kind <;> rfl

/-- Every record is there in a control that was filled in. -/
theorem Control.complete_filled (c : Control) : c.filled.Complete :=
  ⟨Steps.complete_fill c.steps, ⟨_, rfl, Steps.complete_fill _⟩, ⟨_, rfl, rfl⟩⟩

theorem Program.complete_filled (p : Program) : p.filled.Complete := by
  obtain ⟨steps, controls⟩ := p
  refine ⟨Steps.complete_fill steps, ?_, ?_⟩
  · cases controls <;> simp [filled]
  · intro c hc
    cases controls with
    | nil =>
        obtain rfl := List.mem_singleton.mp hc
        exact Control.complete_filled _
    | cons first rest =>
        obtain ⟨other, -, rfl⟩ := List.mem_map.mp hc
        exact Control.complete_filled other

/-- Filling in makes a control where there was none, and no other. -/
theorem Program.length_filled (p : Program) :
    p.filled.controls.length = max 1 p.controls.length := by
  obtain ⟨steps, controls⟩ := p
  cases controls with
  | nil => rfl
  | cons first rest => simp [filled]

/-! The leaves of what is filled in are unset. -/

/-- A blank step sets no leaf. -/
theorem Steps.leaf?_fill (s : Steps) (kind : StepKind) (leaf : ReferenceLeaf) :
    (fill s).leaf? kind leaf = s.leaf? kind leaf := by
  cases kind <;> exact Reference.leaf?_getD_blank _ leaf

/-- Filling in a control sets no leaf. -/
theorem Control.leaf?_filled (c : Control) (leaf : ControlLeaf) :
    c.filled.leaf? leaf = c.leaf? leaf := by
  cases leaf with
  | type | times => rfl
  | eventType =>
      have htype : (c.event.getD .blank).type = c.event.bind (·.type) := by
        cases c.event <;> rfl
      exact congrArg (Option.map _) htype
  | target leaf =>
      have htarget : (c.event.getD .blank).findObject = c.event.bind (·.findObject) := by
        cases c.event <;> rfl
      have hleaf := Reference.leaf?_getD_blank (c.event.getD .blank).findObject leaf
      rw [htarget] at hleaf
      exact (congrArg (fun r => Reference.leaf? (r.getD .blank) leaf) htarget).trans hleaf
  | step kind leaf => exact Steps.leaf?_fill c.steps kind leaf
  | otherwise kind leaf =>
      exact (Steps.leaf?_fill _ kind leaf).trans (Steps.leaf?_getD c.otherwise kind leaf)

theorem Control.leaf?_empty (leaf : ControlLeaf) : empty.leaf? leaf = none := by
  cases leaf with
  | step kind leaf => cases kind <;> rfl
  | _ => rfl

/-- Filling in a program sets no leaf. -/
theorem Program.leaf?_filled (p : Program) (path : LeafPath) :
    p.filled.leaf? path = p.leaf? path := by
  obtain ⟨steps, controls⟩ := p
  cases path with
  | step kind leaf => exact Steps.leaf?_fill steps kind leaf
  | control index leaf =>
      cases controls with
      | nil =>
          have hunset : ∀ c ∈ [Control.empty.filled][index]?, c.leaf? leaf = none := by
            intro c hc
            obtain rfl := List.mem_singleton.mp (List.mem_of_getElem? hc)
            rw [Control.leaf?_filled, Control.leaf?_empty]
          simpa [leaf?, filled] using hunset
      | cons first rest =>
          change ((((first :: rest).map Control.filled)[index]?).bind _) = _
          rw [List.getElem?_map, Option.bind_map]
          exact congrArg _ (funext fun c => Control.leaf?_filled c leaf)

theorem Steps.fill_fill (s : Steps) : fill (fill s) = fill s := rfl

theorem Control.filled_filled (c : Control) : c.filled.filled = c.filled := rfl

/-- What was filled in has nothing left to fill in. -/
theorem Program.filled_filled (p : Program) : p.filled.filled = p.filled := by
  obtain ⟨steps, controls⟩ := p
  cases controls with
  | nil => rfl
  | cons first rest => simp [filled, Control.filled_filled, Steps.fill_fill]

/-- Filling in leaves types as they are. -/
theorem Program.readable_filled {p : Program} (h : Control.ReadableChain p.controls) :
    Control.ReadableChain p.filled.controls := by
  have hfilled : ∀ c : Control, c.Readable → c.filled.Readable := by
    intro c hc
    refine ⟨hc.type, ?_⟩
    rintro e ⟨⟩ type htype
    cases hevent : c.event with
    | none => simp [hevent, Event.blank] at htype
    | some e => exact hc.event e hevent type (by simpa [hevent] using htype)
  obtain ⟨steps, controls⟩ := p
  intro c hc
  cases controls with
  | nil =>
      obtain rfl := List.mem_singleton.mp hc
      exact hfilled _ ⟨by simp [Control.empty], by simp [Control.empty]⟩
  | cons first rest =>
      obtain ⟨other, hother, rfl⟩ := List.mem_map.mp hc
      exact hfilled other (h other hother)

/-- What is read from the conversation form of a program holds every record and the same leaves,
and its own conversation form is the one it was read from. -/
theorem Program.conversation_form_reads_back {value : Json} {p : Program}
    (hread : ofDocument value = .ok p) :
    ∃ q, ofDocument p.nullableDocument = .ok q ∧ q.Complete ∧
      q.controls.length = max 1 p.controls.length ∧ (∀ path, q.leaf? path = p.leaf? path) ∧
      q.nullableDocument = p.nullableDocument := by
  have hreadable := readable_filled (readable_of_ofDocument hread)
  refine ⟨p.filled, ofDocument_envelope_toJson hreadable, p.complete_filled, p.length_filled,
    p.leaf?_filled, ?_⟩
  rw [nullableDocument, filled_filled]
  rfl

/-- A chain of two controls, with keys of conversations and a searched object by its bare name. -/
theorem Program.two_controls_read_back :
    ∃ p, ofDocument (.obj [("control", .obj [
        ("control_type", .str " repeat "), ("times", .int 3),
        ("control_pick", .arr [.str "cup"]),
        ("control", .obj [("event", .obj [("find_object", .str "lid")])])])]) = .ok p ∧
      p.controls.length = 2 ∧ p.leaf? (.control 1 (.target .name)) = some (.text "lid") ∧
      ∃ q, ofDocument p.nullableDocument = .ok q ∧ q.Complete ∧
        q.controls.length = max 1 p.controls.length ∧ (∀ path, q.leaf? path = p.leaf? path) ∧
        q.nullableDocument = p.nullableDocument := by
  refine ⟨⟨.empty, [⟨some .repeated, some 3, none, none, ⟨some ⟨some "cup", none⟩, none, none⟩⟩,
    ⟨none, none, some ⟨none, some ⟨some "lid", none⟩⟩, none, .empty⟩]⟩, ?_, rfl, rfl, ?_⟩
  · rfl
  · exact conversation_form_reads_back (by rfl : ofDocument (.obj [("control", .obj [
      ("control_type", .str " repeat "), ("times", .int 3),
      ("control_pick", .arr [.str "cup"]),
      ("control", .obj [("event", .obj [("find_object", .str "lid")])])])]) = _)

end TaskDiagram
