import TaskDiagram.Proofs.Json.Fields
import TaskDiagram.Proofs.TextMap
import TaskDiagram.Workspace

/-! # Workspaces as document values

A workspace is read back from the value it is written as, whatever its blocks, fields and
coordinates are.
-/

namespace TaskDiagram

/-! ## Entries that may be left out -/

theorem consEntry_eq_append (key : String) (value : Option Json) (entries : Entries) :
    consEntry key value entries = (value.map (key, ·)).toList ++ entries := by
  cases value <;> rfl

theorem mem_consEntry {key : String} {value : Option Json} {entries : Entries}
    {entry : String × Json} :
    entry ∈ consEntry key value entries ↔ (∃ v ∈ value, entry = (key, v)) ∨ entry ∈ entries := by
  cases value <;> simp [consEntry]

/-- What is under a key is found in front of the entries or among them. -/
theorem Fields.valuesUnder_consEntry (keys : List String) (key : String) (value : Option Json)
    (entries : Entries) :
    valuesUnder keys (consEntry key value entries) =
      (if keys.contains key then value.toList else []) ++ valuesUnder keys entries := by
  cases value with
  | none => simp [consEntry]
  | some v =>
      simp only [consEntry, valuesUnder, List.filter_cons]
      split <;> rfl

theorem Fields.valuesUnder_cons (keys : List String) (key : String) (value : Json)
    (entries : Entries) :
    valuesUnder keys ((key, value) :: entries) =
      (if keys.contains key then [value] else []) ++ valuesUnder keys entries :=
  valuesUnder_consEntry keys key (some value) entries

/-- A field with a value for when it is left out. -/
theorem Fields.ofEntries_defaulted {α : Type} {name : String} {default a : α} {decode : Decoder α}
    {entries : Entries} {value : Option Json} (hvalues : valuesUnder [name] entries = value.toList)
    (hdecode : ∀ v ∈ value, decode v = .ok a) (hnone : value = none → default = a) :
    (defaulted name default decode).ofEntries entries = .ok a := by
  cases value with
  | none => exact ofEntries_field_of_nil hvalues (congrArg some (hnone rfl))
  | some v => exact ofEntries_field_of_singleton hvalues (hdecode v rfl)

/-- What is under a key is no higher than the whole. -/
theorem Json.height_lt_of_mem {entries : Entries} {key : String} {value : Json}
    (h : (key, value) ∈ entries) : value.height < (Json.obj entries).height := by
  suffices hle : value.height ≤ heightEntries entries from Nat.lt_succ_of_le hle
  induction entries with
  | nil => cases h
  | cons entry rest ih =>
      rcases List.mem_cons.mp h with rfl | hrest
      · exact Nat.le_max_left _ _
      · exact Nat.le_trans (ih hrest) (Nat.le_max_right _ _)

/-- Pairs are read back when their keys and values are. -/
theorem Decode.pairs_map {κ α : Type} {key : String → Except DecodeError κ} {spell : κ → String}
    {decode : Decoder α} {write : α → Json} (hkey : ∀ k, key (spell k) = .ok k)
    {entries : List (κ × α)} (h : ∀ entry ∈ entries, decode (write entry.2) = .ok entry.2) :
    pairs key decode (entries.map fun entry => (spell entry.1, write entry.2)) = .ok entries := by
  induction entries with
  | nil => rfl
  | cons entry rest ih =>
      obtain ⟨hentry, hrest⟩ := List.forall_mem_cons.mp h
      rw [List.map_cons, pairs, hkey, hentry, ih hrest]
      rfl

/-- Items are read back when each of them is. -/
theorem Decode.items_map {α : Type} {decode : Decoder α} {write : α → Json} {values : List α}
    (h : ∀ a ∈ values, decode (write a) = .ok a) : items decode (values.map write) = .ok values := by
  induction values with
  | nil => rfl
  | cons a rest ih =>
      obtain ⟨ha, hrest⟩ := List.forall_mem_cons.mp h
      rw [List.map_cons, items, ha, ih hrest]
      rfl

/-! ## Fields of blocks -/

theorem Decimal.fitsInt64_toInt (n : Int64) : fitsInt64 n.toInt = true := by
  have hlow : minInt64 ≤ n.toInt := Int64.le_toInt n
  have hhigh : n.toInt ≤ maxInt64 := Int.le_of_lt_add_one (Int64.toInt_lt n)
  simp [fitsInt64, hlow, hhigh]

/-- A value of a field is read back from what it is written as, its kind included. -/
theorem FieldValue.decode_toJson (value : FieldValue) : decode value.toJson = .ok value := by
  cases value with
  | int n => simp [toJson, decode, Decimal.fitsInt64_toInt]
  | float x => rfl
  | bool b => rfl
  | text s => rfl

/-- Fields are read back from what they are written as. -/
theorem FieldMap.decode_toJson (fields : FieldMap) : decode fields.toJson = .ok fields := by
  have hpairs : Decode.map .ok FieldValue.decode fields.toJson = .ok fields.entries :=
    Decode.pairs_map (fun _ => rfl) fun entry _ => FieldValue.decode_toJson entry.2
  rw [decode, hpairs]
  exact congrArg Except.ok fields.ofList_entries

/-- A kind is read back from its name. -/
theorem BlockKind.decode_toJson (kind : BlockKind) : decode kind.toJson = .ok kind := by
  cases kind <;> rfl

theorem socketKey_name (socket : SocketName) : Node.socketKey socket.name = .ok socket := by
  cases socket <;> rfl

/-! ## Nodes -/

theorem Node.optionToJson_eq_map (node : Option Node) :
    Node.optionToJson node = node.map Node.toJson := by
  cases node <;> rfl

/-- The sockets in the order in which they are written. -/
def SocketName.alphabetical : List SocketName :=
  [.action, .body, .location, .next, .object, .otherwise, .when]

/-- What is plugged in, in the order in which it is written. -/
def Sockets.written {α : Type} (inputs : Sockets α) : List (SocketName × α) :=
  SocketName.alphabetical.filterMap fun socket => (inputs.get? socket).map (socket, ·)

/-- Sockets that are filled are written, each under its name. -/
theorem socketsToEntries_eq_map (inputs : Sockets Node) :
    socketsToEntries inputs = inputs.written.map fun entry => (entry.1.name, entry.2.toJson) := by
  obtain ⟨object, location, action, when, body, otherwise, next⟩ := inputs
  simp only [socketsToEntries, consEntry_eq_append, Node.optionToJson_eq_map, Sockets.written,
    SocketName.alphabetical, List.filterMap_eq_flatMap_toList, List.flatMap_cons, List.flatMap_nil,
    List.map_append, Option.toList_map, List.map_map]
  rfl

/-- What is written is what is plugged in. -/
theorem Sockets.mem_written {α : Type} {inputs : Sockets α} {socket : SocketName} {content : α} :
    (socket, content) ∈ inputs.written ↔ inputs.get? socket = some content := by
  have hall : socket ∈ SocketName.alphabetical := by cases socket <;> decide
  simp only [written, List.mem_filterMap, Option.map_eq_some_iff, Prod.mk.injEq]
  constructor
  · rintro ⟨_, _, _, hget, rfl, rfl⟩
    exact hget
  · exact fun hget => ⟨socket, hall, content, hget, rfl, rfl⟩

/-- What is plugged in is, for each socket, the last node of a list. -/
theorem Node.get?_socketsOf (entries : List (SocketName × Node)) (socket : SocketName) :
    (socketsOf entries).get? socket = (entries.reverse.find? (·.1 == socket)).map (·.2) := by
  have hlookup := lookup_foldl Sockets.get?
    (fun inputs entry => inputs.set (some entry.2) entry.1)
    (fun inputs entry other => inputs.get?_set (some entry.2) entry.1 other) entries .empty socket
  rwa [Sockets.get?_empty, Option.or_none] at hlookup

/-- Sockets are read back from what is written of them. -/
theorem Node.socketsOf_written (inputs : Sockets Node) : socketsOf inputs.written = inputs := by
  apply Sockets.ext_get?
  intro socket
  rw [get?_socketsOf]
  cases hfind : inputs.written.reverse.find? (·.1 == socket) with
  | none =>
      cases hcontent : inputs.get? socket with
      | none => rfl
      | some node =>
          have hmem := List.mem_reverse.mpr (Sockets.mem_written.mpr hcontent)
          have hnot := List.find?_eq_none.mp hfind _ hmem
          simp at hnot
  | some entry =>
      obtain ⟨filled, node⟩ := entry
      have heq : filled = socket := by simpa using List.find?_some hfind
      subst heq
      have hmem := List.mem_reverse.mp (List.mem_of_find?_eq_some hfind)
      exact (Sockets.mem_written.mp hmem).symm

/-- The entries a node is written as. -/
def Node.entries (node : Node) : Entries :=
  consEntry "fields" (if node.fields.isEmpty then none else some node.fields.toJson)
    (consEntry "inputs"
      (if (socketsToEntries node.inputs).isEmpty then none
        else some (.obj (socketsToEntries node.inputs)))
      (("kind", node.kind.toJson) ::
        consEntry "next" (node.next.map toJson)
          (consEntry "x" (node.x.map .float) (consEntry "y" (node.y.map .float) []))))

theorem Node.toJson_eq (node : Node) : node.toJson = .obj node.entries := by
  obtain ⟨kind, fields, x, y, next, inputs⟩ := node
  rw [toJson, entries, optionToJson_eq_map]

theorem FieldMap.eq_empty_of_isEmpty {fields : FieldMap} (h : fields.isEmpty = true) :
    fields = .empty := TextMap.ext (List.isEmpty_iff.mp h)

/-- What is behind a node is nested less deep than the node. -/
theorem Node.height_lt_of_next {node next : Node} (h : node.next = some next) :
    next.toJson.height < node.toJson.height := by
  have hmem : ("next", next.toJson) ∈ node.entries := by simp [entries, mem_consEntry, h]
  rw [toJson_eq node]
  exact Json.height_lt_of_mem hmem

/-- What is plugged into a node is nested less deep than the node. -/
theorem Node.height_lt_of_input {node input : Node} {socket : SocketName}
    (h : node.inputs.get? socket = some input) : input.toJson.height < node.toJson.height := by
  have hmem : (socket.name, input.toJson) ∈ socketsToEntries node.inputs := by
    rw [socketsToEntries_eq_map]
    exact List.mem_map.mpr ⟨_, Sockets.mem_written.mpr h, rfl⟩
  have hoccupied : (socketsToEntries node.inputs).isEmpty = false :=
    List.isEmpty_eq_false_iff.mpr (List.ne_nil_of_mem hmem)
  have hinputs : ("inputs", Json.obj (socketsToEntries node.inputs)) ∈ node.entries := by
    simp [entries, mem_consEntry, hoccupied]
  rw [toJson_eq node]
  exact Nat.lt_trans (Json.height_lt_of_mem hmem) (Json.height_lt_of_mem hinputs)

section Reading

variable {kind : Decoder BlockKind} {depth : Nat} {node : Node}

open Fields

theorem Node.ofEntries_kind (hkind : ∀ k : BlockKind, kind k.toJson = .ok k) :
    (need "kind" kind).ofEntries node.entries = .ok node.kind := by
  refine ofEntries_field_of_singleton ?_ (hkind _)
  simp [Node.entries, valuesUnder_consEntry, valuesUnder_cons]

theorem Node.ofEntries_fields :
    (defaulted "fields" .empty FieldMap.decode).ofEntries node.entries = .ok node.fields := by
  have hvalues : valuesUnder ["fields"] node.entries =
      (if node.fields.isEmpty then none else some node.fields.toJson).toList := by
    simp [Node.entries, valuesUnder_consEntry, valuesUnder_cons]
  apply ofEntries_defaulted hvalues
  · intro v hv
    obtain ⟨-, rfl⟩ : node.fields.isEmpty = false ∧ node.fields.toJson = v := by simpa using hv
    exact node.fields.decode_toJson
  · intro hnone
    exact (FieldMap.eq_empty_of_isEmpty (by simpa using hnone)).symm

/-- The sockets of a node are read back when what is plugged in is. -/
theorem Node.ofEntries_inputs
    (h : ∀ socket input, node.inputs.get? socket = some input →
      decodeWithin kind depth input.toJson = .ok input) :
    (defaulted "inputs" .empty fun value =>
      (Decode.map socketKey (decodeWithin kind depth) value).map socketsOf).ofEntries node.entries =
      .ok node.inputs := by
  have hvalues : valuesUnder ["inputs"] node.entries =
      (if (socketsToEntries node.inputs).isEmpty then none
        else some (Json.obj (socketsToEntries node.inputs))).toList := by
    simp [Node.entries, valuesUnder_consEntry, valuesUnder_cons]
  have hpairs : Decode.map socketKey (decodeWithin kind depth)
      (.obj (socketsToEntries node.inputs)) = .ok node.inputs.written := by
    rw [socketsToEntries_eq_map]
    exact Decode.pairs_map socketKey_name fun entry hentry =>
      h entry.1 entry.2 (Sockets.mem_written.mp hentry)
  apply ofEntries_defaulted hvalues
  · intro v hv
    obtain ⟨-, rfl⟩ : socketsToEntries node.inputs ≠ [] ∧
      Json.obj (socketsToEntries node.inputs) = v := by simpa using hv
    rw [hpairs]
    exact congrArg Except.ok (socketsOf_written node.inputs)
  · intro hnone
    have hentries : socketsToEntries node.inputs = [] := by simpa using hnone
    have hwritten : node.inputs.written = [] :=
      List.map_eq_nil_iff.mp ((socketsToEntries_eq_map node.inputs).symm.trans hentries)
    have hsockets := socketsOf_written node.inputs
    rwa [hwritten] at hsockets

theorem Node.ofEntries_x : (optional "x" Decode.float).ofEntries node.entries = .ok node.x := by
  have hvalues : valuesUnder ["x"] node.entries = (node.x.map .float).toList := by
    simp [Node.entries, valuesUnder_consEntry, valuesUnder_cons]
  exact ofEntries_optionalAs_self hvalues fun _ _ => ⟨nofun, rfl⟩

theorem Node.ofEntries_y : (optional "y" Decode.float).ofEntries node.entries = .ok node.y := by
  have hvalues : valuesUnder ["y"] node.entries = (node.y.map .float).toList := by
    simp [Node.entries, valuesUnder_consEntry, valuesUnder_cons]
  exact ofEntries_optionalAs_self hvalues fun _ _ => ⟨nofun, rfl⟩

/-- What is behind a node is read back when it is by itself. -/
theorem Node.ofEntries_next
    (h : ∀ next, node.next = some next → decodeWithin kind depth next.toJson = .ok next) :
    (optional "next" (decodeWithin kind depth)).ofEntries node.entries = .ok node.next := by
  have hvalues : valuesUnder ["next"] node.entries = (node.next.map toJson).toList := by
    simp [Node.entries, valuesUnder_consEntry, valuesUnder_cons]
  refine ofEntries_optionalAs_self hvalues fun next hnext => ⟨?_, h next hnext⟩
  rw [toJson_eq]
  exact nofun

end Reading

/-- A node is read back to a depth that its value does not reach. -/
theorem Node.decodeWithin_toJson {kind : Decoder BlockKind}
    (hkind : ∀ k : BlockKind, kind k.toJson = .ok k) (depth : Nat) (node : Node)
    (h : node.toJson.height < depth) : decodeWithin kind depth node.toJson = .ok node := by
  induction depth generalizing node with
  | zero => exact absurd h (Nat.not_lt_zero _)
  | succ depth ih =>
      have hle := Nat.le_of_lt_succ h
      have hnext : ∀ next, node.next = some next →
          decodeWithin kind depth next.toJson = .ok next := fun next hnext =>
        ih next (Nat.lt_of_lt_of_le (height_lt_of_next hnext) hle)
      have hinputs : ∀ socket input, node.inputs.get? socket = some input →
          decodeWithin kind depth input.toJson = .ok input := fun socket input hinput =>
        ih input (Nat.lt_of_lt_of_le (height_lt_of_input hinput) hle)
      rw [toJson_eq]
      apply Fields.read_obj
      obtain ⟨k, fields, x, y, next, inputs⟩ := node
      refine Fields.ofEntries_seq ?_ (ofEntries_inputs hinputs)
      refine Fields.ofEntries_seq ?_ (ofEntries_next hnext)
      refine Fields.ofEntries_seq ?_ ofEntries_y
      refine Fields.ofEntries_seq ?_ ofEntries_x
      refine Fields.ofEntries_seq ?_ ofEntries_fields
      exact Fields.ofEntries_map mk (ofEntries_kind hkind)

/-- A node is read back from what it is written as. -/
theorem Node.decode_toJson (node : Node) : decode node.toJson = .ok node :=
  decodeWithin_toJson BlockKind.decode_toJson _ node (Nat.lt_succ_self _)

/-- A workspace is read back from what it is written as. -/
theorem Workspace.decode_toJson (w : Workspace) : decode w.toJson = .ok w := by
  have hblocks : (fields Node.decode).ofEntries
      [("blocks", .arr (w.blocks.map Node.toJson))] = .ok w := by
    apply Fields.ofEntries_map Workspace.mk
    exact Fields.ofEntries_field_of_singleton rfl (Decode.items_map fun node _ => node.decode_toJson)
  have hknown : (fields Node.decode).firstUnknown?
      [("blocks", .arr (w.blocks.map Node.toJson))] = none := rfl
  rw [decode, toJson, Fields.readStrict, hblocks, hknown]

end TaskDiagram
