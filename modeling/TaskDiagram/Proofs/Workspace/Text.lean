import TaskDiagram.Proofs.Graph.Edited
import TaskDiagram.Proofs.Json.Printed
import TaskDiagram.Proofs.Workspace.Document
import TaskDiagram.Proofs.Workspace.RoundTrip

/-! # Workspaces in document text

The text of a workspace is read as the same workspace with coordinates that are those read of their
own texts.
-/

namespace TaskDiagram

open Json

/-! ## Entries that may be left out -/

theorem everyEntry_consEntry {P : Option String → Json → Prop} {key : String}
    {value : Option Json} {entries : Entries} :
    EveryEntry P (consEntry key value entries) ↔
      (∀ v ∈ value, Everywhere P (some key) v) ∧ EveryEntry P entries := by
  cases value <;> simp [consEntry, EveryEntry]

theorem mapEntries_consEntry (f : Float → Float) (key : String) (value : Option Json)
    (entries : Entries) :
    mapEntries f (consEntry key value entries) =
      consEntry key (value.map (mapFloats f)) (mapEntries f entries) := by
  cases value <;> rfl

theorem isEmpty_mapEntries (f : Float → Float) (entries : Entries) :
    (mapEntries f entries).isEmpty = entries.isEmpty := by
  cases entries <;> rfl

/-! ## Legible nodes -/

/-- The double a field holds. -/
def FieldValue.double? : FieldValue → Option Float
  | .float x => some x
  | _ => none

/-- Doubles among the fields are read back from their texts. -/
def FieldMap.ReadBack (fields : FieldMap) : Prop :=
  ∀ entry ∈ fields.entries, ∀ x, entry.2 = .float x → ReadsAs x x

mutual

/-- Doubles among the fields are read back from their texts, and coordinates are finite. -/
def Node.Legible : Node → Prop
  | ⟨_, fields, x, y, next, inputs⟩ =>
      fields.ReadBack ∧ (∀ a ∈ x, a.isFinite = true) ∧ (∀ a ∈ y, a.isFinite = true) ∧
        OptionLegible next ∧ SocketsLegible inputs

def OptionLegible : Option Node → Prop
  | none => True
  | some node => node.Legible

def SocketsLegible : Sockets Node → Prop
  | ⟨object, location, action, when, body, otherwise, next⟩ =>
      OptionLegible object ∧ OptionLegible location ∧ OptionLegible action ∧ OptionLegible when ∧
        OptionLegible body ∧ OptionLegible otherwise ∧ OptionLegible next

end

theorem optionLegible_iff {node : Option Node} : OptionLegible node ↔ ∀ n ∈ node, n.Legible := by
  cases node <;> simp [OptionLegible]

/-- Fields whose doubles are read back are written as a legible value. -/
theorem FieldMap.everywhere_toJson {fields : FieldMap} (h : fields.ReadBack)
    (key : Option String) : Everywhere IsLegible key fields.toJson := by
  unfold ReadBack at h
  refine ⟨trivial, ?_⟩
  generalize fields.entries = entries at h ⊢
  induction entries with
  | nil => trivial
  | cons entry rest ih =>
      obtain ⟨hentry, hrest⟩ := List.forall_mem_cons.mp h
      refine ⟨?_, ih hrest⟩
      obtain ⟨name, value⟩ := entry
      cases value with
      | int n => exact fitsWord_toInt n
      | float x => exact (hentry x rfl).isFinite
      | bool b => trivial
      | text s => trivial

/-- Doubles that are read back are the same in the text. -/
theorem FieldMap.mapFloats_toJson {fields : FieldMap} (h : fields.ReadBack) :
    fields.toJson.mapFloats reread = fields.toJson := by
  unfold ReadBack at h
  rw [toJson, mapFloats]
  generalize fields.entries = entries at h ⊢
  congr 1
  induction entries with
  | nil => rfl
  | cons entry rest ih =>
      obtain ⟨hentry, hrest⟩ := List.forall_mem_cons.mp h
      rw [List.map_cons, mapEntries, ih hrest]
      obtain ⟨name, value⟩ := entry
      congr 2
      cases value with
      | float x => exact congrArg Json.float (hentry x rfl).reread_eq
      | _ => rfl

theorem everywhere_coordinate {key : Option String} {o : Option Float}
    (h : ∀ a ∈ o, a.isFinite = true) : ∀ v ∈ o.map Json.float, Everywhere IsLegible key v := by
  intro v hv
  obtain ⟨a, ha, rfl⟩ := Option.mem_map.mp hv
  exact h a ha

theorem map_coordinate (f : Float → Float) (o : Option Float) :
    (o.map Json.float).map (mapFloats f) = (o.map f).map .float := by
  cases o <;> rfl

mutual

/-- A legible node is written as a legible value. -/
theorem Node.everywhere_toJson : ∀ (node : Node) (key : Option String), node.Legible →
    Everywhere IsLegible key node.toJson
  | ⟨kind, fields, x, y, next, inputs⟩, key, ⟨hfields, hx, hy, hnext, hinputs⟩ => by
      rw [Node.toJson]
      refine ⟨trivial, ?_⟩
      simp only [everyEntry_consEntry, EveryEntry]
      refine ⟨?_, ?_, trivial, everywhere_optionToJson next _ hnext, everywhere_coordinate hx,
        everywhere_coordinate hy, trivial⟩
      · intro v hv
        obtain ⟨-, rfl⟩ : fields.isEmpty = false ∧ fields.toJson = v := by simpa using hv
        exact FieldMap.everywhere_toJson hfields _
      · intro v hv
        obtain ⟨-, rfl⟩ : socketsToEntries inputs ≠ [] ∧ Json.obj (socketsToEntries inputs) = v := by
          simpa using hv
        exact ⟨trivial, everyEntry_socketsToEntries inputs hinputs⟩

theorem everywhere_optionToJson : ∀ (node : Option Node) (key : Option String),
    OptionLegible node → ∀ v ∈ Node.optionToJson node, Everywhere IsLegible key v
  | none, _, _, _, hv => by cases hv
  | some node, key, h, _, hv => by
      cases hv
      exact Node.everywhere_toJson node key h

theorem everyEntry_socketsToEntries : ∀ inputs : Sockets Node, SocketsLegible inputs →
    EveryEntry IsLegible (socketsToEntries inputs)
  | ⟨object, location, action, when, body, otherwise, next⟩,
      ⟨hobject, hlocation, haction, hwhen, hbody, hotherwise, hnext⟩ => by
      simp only [socketsToEntries, everyEntry_consEntry]
      exact ⟨everywhere_optionToJson action _ haction, everywhere_optionToJson body _ hbody,
        everywhere_optionToJson location _ hlocation, everywhere_optionToJson next _ hnext,
        everywhere_optionToJson object _ hobject, everywhere_optionToJson otherwise _ hotherwise,
        everywhere_optionToJson when _ hwhen, trivial⟩

end

mutual

/-- Through text, a legible node comes as the node with the coordinates that are read of theirs. -/
theorem Node.mapFloats_toJson : ∀ node : Node, node.Legible →
    node.toJson.mapFloats reread = (node.redrawn reread).toJson
  | ⟨kind, fields, x, y, next, inputs⟩, ⟨hfields, _, _, hnext, hinputs⟩ => by
      have hshown : (if fields.isEmpty then none else some fields.toJson).map (mapFloats reread) =
          if fields.isEmpty then none else some fields.toJson := by
        split
        · rfl
        · rw [Option.map_some, FieldMap.mapFloats_toJson hfields]
      have hplugged : (if (socketsToEntries inputs).isEmpty then none
            else some (Json.obj (socketsToEntries inputs))).map (mapFloats reread) =
          if (socketsToEntries (socketsRedrawn reread inputs)).isEmpty then none
          else some (Json.obj (socketsToEntries (socketsRedrawn reread inputs))) := by
        rw [← mapEntries_socketsToEntries inputs hinputs, isEmpty_mapEntries]
        split <;> rfl
      simp only [Node.toJson, Node.redrawn, mapFloats, mapEntries_consEntry, mapEntries, hshown,
        hplugged, map_optionToJson next hnext, map_coordinate]
      rfl

theorem map_optionToJson : ∀ node : Option Node, OptionLegible node →
    (Node.optionToJson node).map (mapFloats reread) =
      Node.optionToJson (optionRedrawn reread node)
  | none, _ => rfl
  | some node, h => congrArg some (Node.mapFloats_toJson node h)

theorem mapEntries_socketsToEntries : ∀ inputs : Sockets Node, SocketsLegible inputs →
    mapEntries reread (socketsToEntries inputs) = socketsToEntries (socketsRedrawn reread inputs)
  | ⟨object, location, action, when, body, otherwise, next⟩,
      ⟨hobject, hlocation, haction, hwhen, hbody, hotherwise, hnext⟩ => by
      simp only [socketsToEntries, socketsRedrawn, mapEntries_consEntry, mapEntries,
        map_optionToJson object hobject, map_optionToJson location hlocation,
        map_optionToJson action haction, map_optionToJson when hwhen,
        map_optionToJson body hbody, map_optionToJson otherwise hotherwise,
        map_optionToJson next hnext]

end

/-! ## Workspaces -/

namespace Workspace

variable {w : Workspace}

/-- All chains are legible. -/
def Legible (w : Workspace) : Prop := ∀ node ∈ w.blocks, node.Legible

/-- A legible workspace is written as a legible value. -/
theorem everywhere_toJson (h : w.Legible) : Everywhere IsLegible none w.toJson := by
  unfold Legible at h
  refine ⟨trivial, ⟨trivial, ?_⟩, trivial⟩
  generalize w.blocks = blocks at h ⊢
  induction blocks with
  | nil => trivial
  | cons node rest ih =>
      obtain ⟨hnode, hrest⟩ := List.forall_mem_cons.mp h
      exact ⟨node.everywhere_toJson none hnode, ih hrest⟩

/-- Through text, a legible workspace comes with the coordinates that are read of its own. -/
theorem mapFloats_toJson (h : w.Legible) :
    w.toJson.mapFloats reread = (w.redrawn reread).toJson := by
  unfold Legible at h
  rw [toJson, toJson, redrawn]
  generalize w.blocks = blocks at h ⊢
  have hitems : mapItems reread (blocks.map Node.toJson) =
      (blocks.map (Node.redrawn reread)).map Node.toJson := by
    induction blocks with
    | nil => rfl
    | cons node rest ih =>
        obtain ⟨hnode, hrest⟩ := List.forall_mem_cons.mp h
        rw [List.map_cons, mapItems, node.mapFloats_toJson hnode, ih hrest]
        rfl
  simp only [mapFloats, mapEntries, hitems]

/-- The text of a workspace that is not nested too deep is read as the workspace, coordinates as
they are read. -/
theorem read_toJson (h : w.Legible) (hheight : w.toJson.height ≤ maxDepth) :
    Json.read w.toJson.compact = .ok (w.redrawn reread).toJson := by
  rw [read_compact (everywhere_toJson h), if_pos hheight, mapFloats_toJson h]

end Workspace

namespace Graph

variable {g : Graph}

/-! ## Diagrams -/

/-- Doubles among the fields of blocks are read back from their texts. -/
def FieldsReadBack (g : Graph) : Prop := ∀ id b, g.block? id = some b → b.fields.ReadBack

/-- The coordinates of roots are finite. -/
def RootsFinite (g : Graph) : Prop :=
  ∀ root ∈ g.roots, ∀ p, g.position? root = some p → p.x.isFinite = true ∧ p.y.isFinite = true

theorem mem_cells {id : BlockId} {b : Block} (hb : g.block? id = some b) :
    some b ∈ g.cells.toList :=
  Array.mem_toList_iff.mpr (Array.mem_of_getElem? (Option.join_eq_some_iff.mp hb))

/-- Whether doubles are read back can be told from the cells. -/
theorem fieldsReadBack_of_cells
    (h : ∀ cell ∈ g.cells.toList, ∀ b ∈ cell, ∀ entry ∈ b.fields.entries,
      ∀ x ∈ entry.2.double?, x.isFinite = true ∧ reread x = x) : g.FieldsReadBack := by
  intro id b hb entry hentry x hx
  have hdouble : x ∈ entry.2.double? := by rw [hx]; rfl
  exact readsAs_self_iff.mpr (h (some b) (mem_cells hb) b rfl entry hentry x hdouble)

/-- Whether coordinates are finite can be told from the cells. -/
theorem rootsFinite_of_cells
    (h : ∀ cell ∈ g.cells.toList, ∀ b ∈ cell, ∀ p ∈ b.position,
      p.x.isFinite = true ∧ p.y.isFinite = true) : g.RootsFinite := by
  intro root _ p hp
  obtain ⟨b, hb, hposition⟩ := Option.bind_eq_some_iff.mp hp
  exact h (some b) (mem_cells hb) b rfl p hposition

/-- The node of a block is legible when the doubles in the fields are read back; no coordinates are
written below a root. -/
theorem FieldsReadBack.legible_node? (h : g.FieldsReadBack) {fuel : Nat} {id : BlockId}
    {node : Node} (hnode : g.node? fuel id = some node) : node.Legible := by
  induction fuel generalizing id node with
  | zero => cases hnode
  | succ fuel ih =>
      obtain ⟨b, hb, rfl⟩ := Option.map_eq_some_iff.mp hnode
      have hchild : ∀ socket, OptionLegible ((b.inputs.get? socket).bind (g.node? fuel)) := by
        intro socket
        rw [optionLegible_iff]
        intro child hchild
        obtain ⟨id, -, hid⟩ := Option.bind_eq_some_iff.mp hchild
        exact ih hid
      exact ⟨h id b hb, nofun, nofun, hchild .next, hchild .object, hchild .location,
        hchild .action, hchild .when, hchild .body, hchild .otherwise, trivial⟩

/-- The workspace of a diagram is legible when the doubles in its fields are read back and its roots
stand at finite coordinates. -/
theorem FieldsReadBack.legible_toWorkspace (h : g.FieldsReadBack) (hroots : g.RootsFinite) :
    g.toWorkspace.Legible := by
  intro node hmem
  obtain ⟨root, hroot, hnode⟩ := List.mem_filterMap.mp hmem
  obtain ⟨bare, hbare, rfl⟩ := Option.map_eq_some_iff.mp hnode
  have hlegible := h.legible_node? hbare
  obtain ⟨kind, fields, x, y, next, inputs⟩ := bare
  obtain ⟨hfields, -, -, hrest⟩ := hlegible
  split
  next p hp =>
    obtain ⟨hx, hy⟩ := hroots root hroot p hp
    refine ⟨hfields, ?_, ?_, hrest⟩
    · rintro _ ⟨⟩
      exact hx
    · rintro _ ⟨⟩
      exact hy
  next => exact h.legible_node? hbare

/-- What edits lead to is loaded from its workspace as it is, and with finite coordinates so it is
from the document value of the workspace. From its text it is loaded but for coordinates, which are
those that are read of their texts, unless the text is nested too deep to be read at all. -/
theorem reloads_after_edits {grammar : Grammar} (hdefaults : grammar.DefaultsAdmitted)
    (layout : Layout) (edits : List GraphEdit) :
    let g := (empty grammar).run edits
    g.ReloadsFrom layout g.toWorkspace id ∧
      (g.RootsFinite →
        Workspace.decode g.toWorkspace.toJson = .ok g.toWorkspace ∧
        (g.FieldsReadBack →
          if g.toWorkspace.toJson.height ≤ maxDepth then
            ∃ value w, Json.read g.toWorkspace.toJson.compact = .ok value ∧
              Workspace.decode value = .ok w ∧ g.ReloadsFrom layout w reread
          else Json.read g.toWorkspace.toJson.compact = .error .malformed)) := by
  intro g
  have hg : g.IsForest := (isForest_empty grammar).run edits
  have hgrammar : g.grammar = grammar := grammar_run _ edits
  have hempty : (empty grammar).FieldsAdmitted := fun _ _ => nofun
  have hfields : g.FieldsAdmitted := hempty.run hdefaults edits
  refine ⟨hg.reloadsFrom_toWorkspace hfields layout, fun hroots => ⟨Workspace.decode_toJson _, ?_⟩⟩
  intro hread
  have hlegible := hread.legible_toWorkspace hroots
  split
  next hheight =>
    exact ⟨_, _, Workspace.read_toJson hlegible hheight, Workspace.decode_toJson _,
      hg.reloadsFrom_redrawn hfields layout reread⟩
  next hheight =>
    rw [read_compact (Workspace.everywhere_toJson hlegible), if_neg hheight]

/-- A movement of a cup, known by a number that is written as a double, and beside it a movement
that is repeated three times. -/
def twoMovements : List GraphEdit :=
  [.insert .pick, .insert .objectRef, .setField 1 fieldName (.text "cup"),
    .setField 1 fieldId (.float 7.0), .connect 0 .object 1, .insert .place, .connect 0 .next 2,
    .setPosition 0 ⟨1.5, 2.5⟩, .insert .repeated, .setField 3 fieldTimes (.int 3), .insert .pick,
    .connect 3 .body 4, .insert .place, .connect 4 .next 5, .setPosition 3 ⟨-8.25, 300.0⟩]

/-- The two movements are loaded again from their workspace, from its document value and from its
text. -/
theorem reloads_after_edits_standard :
    Grammar.standard.DefaultsAdmitted ∧
      let g := (empty .standard).run twoMovements
      g.roots = [0, 3] ∧ (g.position? 3).map (·.x) = some (-8.25) ∧
        ((g.block? 1).bind (·.field? fieldId)).bind (·.double?) = some 7.0 ∧
        g.RootsFinite ∧ g.FieldsReadBack ∧ g.toWorkspace.toJson.height ≤ maxDepth ∧
        g.ReloadsFrom .standard g.toWorkspace id ∧
        Workspace.decode g.toWorkspace.toJson = .ok g.toWorkspace ∧
        ∃ value w, Json.read g.toWorkspace.toJson.compact = .ok value ∧
          Workspace.decode value = .ok w ∧ g.ReloadsFrom .standard w reread := by
  have hreloads := reloads_after_edits Grammar.defaultsAdmitted_standard .standard twoMovements
  refine ⟨Grammar.defaultsAdmitted_standard, ?_⟩
  intro g
  have hroots : g.roots = [0, 3] := by decide +kernel
  have hplace : (g.position? 3).map (·.x) = some (-8.25) := by decide +kernel
  have hdouble : ((g.block? 1).bind (·.field? fieldId)).bind (·.double?) = some 7.0 := by
    decide +kernel
  have hfinite : g.RootsFinite := rootsFinite_of_cells (by decide +kernel)
  have hread : g.FieldsReadBack := fieldsReadBack_of_cells (by decide +kernel)
  have hheight : g.toWorkspace.toJson.height ≤ maxDepth := by decide +kernel
  obtain ⟨hvalue, htext⟩ := hreloads.2 hfinite
  rw [if_pos hheight] at htext
  exact ⟨hroots, hplace, hdouble, hfinite, hread, hheight, hreloads.1, hvalue, htext hread⟩

/-! ### What is lost in text -/

/-- A coordinate that is not kept does not come back. -/
theorem ReloadsFrom.not_id {layout : Layout} {w : Workspace} {f : Float → Float}
    (h : g.ReloadsFrom layout w f) {root : BlockId} (hroot : root ∈ g.roots) {p : Position}
    (hp : g.position? root = some p) (hmoved : f p.x ≠ p.x) : ¬ g.ReloadsFrom layout w id := by
  intro hid
  obtain ⟨rename, hrename, hplace⟩ := h.renamed
  obtain ⟨other, hother, hkept⟩ := hid.renamed
  -- Both ways of naming the blocks give the roots in their order, so they agree on roots.
  have hsame : rename root = other root :=
    List.map_inj_left.mp (hrename.roots.symm.trans hother.roots) root hroot
  have heq := (hplace root hroot p hp).symm.trans (hsame ▸ hkept root hroot p hp)
  exact hmoved (congrArg Position.x (Option.some.inj heq))

/-- A whole number in a field that no loaded block has does not come back. -/
theorem ReloadsFrom.exists_intField? {layout : Layout} {w : Workspace} {f : Float → Float}
    (h : g.ReloadsFrom layout w f) {id : BlockId} {b : Block} (hb : g.block? id = some b)
    (name : String) :
    ∃ cell ∈ (ofWorkspace g.grammar layout w).cells.toList,
      cell.map (·.intField? name) = some (b.intField? name) := by
  obtain ⟨rename, hrename, -⟩ := h.renamed
  have hfields := hrename.fields id (by simp [Live, hb])
  rw [hb] at hfields
  obtain ⟨loaded, hloaded, heq⟩ := Option.map_eq_some_iff.mp hfields
  refine ⟨some loaded, mem_cells hloaded, ?_⟩
  simp only [Option.map_some, Block.intField?, Block.field?, heq]

/-- Loops, each in the body of the one after it. -/
def nestLoops (count : Nat) : List GraphEdit :=
  (List.range count).flatMap fun id => [.insert .loop, .connect id .body (id - 1)]

/-- The text of a root that stands far out is read as that of a root beside it. -/
theorem exists_root_elsewhere :
    let g := (empty .standard).run [.insert .loop, .setPosition 0 ⟨12345858901234.693, 0.0⟩]
    g.RootsFinite ∧ ∃ value w, Json.read g.toWorkspace.toJson.compact = .ok value ∧
      Workspace.decode value = .ok w ∧ ¬ g.ReloadsFrom .standard w id := by
  intro g
  have hroots : g.roots = [0] := by decide +kernel
  have hplace : g.position? 0 = some ⟨12345858901234.693, 0.0⟩ := rfl
  have hread : g.FieldsReadBack := fieldsReadBack_of_cells (by decide +kernel)
  have hfinite : g.RootsFinite := rootsFinite_of_cells (by decide +kernel)
  have hg : g.Edited := edited_run _
  refine ⟨hfinite, _, _, Workspace.read_toJson (hread.legible_toWorkspace hfinite) ?_,
    Workspace.decode_toJson _, ?_⟩
  · decide +kernel
  · refine (hg.forest.reloadsFrom_redrawn hg.fields .standard reread).not_id
      (hroots ▸ List.mem_cons_self) hplace ?_
    decide +kernel

/-- The text of loops in one another is nested too deep. -/
theorem read_nestLoops :
    let g := (empty .standard).run (nestLoops 64)
    g.RootsFinite ∧ Json.read g.toWorkspace.toJson.compact = .error .malformed := by
  intro g
  have hfinite : g.RootsFinite := rootsFinite_of_cells (by decide +kernel)
  have hread : g.FieldsReadBack := fieldsReadBack_of_cells (by decide +kernel)
  have hheight : ¬ g.toWorkspace.toJson.height ≤ maxDepth := by decide +kernel
  have hlegible := Workspace.everywhere_toJson (hread.legible_toWorkspace hfinite)
  exact ⟨hfinite, by rw [read_compact hlegible, if_neg hheight]⟩

/-- An id beyond the whole numbers that are read exactly is read as the one beside it. -/
theorem exists_field_changed :
    let g := (empty .standard).run
      [.insert .objectRef, .setField 0 fieldId (.float 9007199254740991.0)]
    g.RootsFinite ∧ ∃ value w, Json.read g.toWorkspace.toJson.compact = .ok value ∧
      Workspace.decode value = .ok w ∧ ¬ g.ReloadsFrom .standard w id := by
  intro g
  have hfinite : g.RootsFinite := rootsFinite_of_cells (by decide +kernel)
  let w : Workspace :=
    ⟨[⟨.objectRef, .ofList [(fieldId, .float (reread 9007199254740991.0))], none, none, none,
      .empty⟩]⟩
  have hlegible : Everywhere IsLegible none g.toWorkspace.toJson := by
    have hid : (9007199254740991.0 : Float).isFinite = true := by decide +kernel
    exact ⟨trivial, ⟨trivial, ⟨trivial, ⟨trivial, hid, trivial⟩, trivial, trivial⟩, trivial⟩, trivial⟩
  have hb : ∃ b, g.block? 0 = some b ∧ b.intField? fieldId = some 9007199254740991 :=
    ⟨_, rfl, by decide +kernel⟩
  refine ⟨hfinite, _, w, (read_compact hlegible).trans (if_pos ?_), rfl, ?_⟩
  · decide +kernel
  · intro hid
    obtain ⟨b, hb, hcount⟩ := hb
    obtain ⟨cell, hcell, heq⟩ := hid.exists_intField? hb fieldId
    rw [hcount] at heq
    have hchanged : ∀ cell ∈ (ofWorkspace g.grammar .standard w).cells.toList,
        cell.map (·.intField? fieldId) ≠ some (some 9007199254740991) := by decide +kernel
    exact hchanged cell hcell heq

/-- Text loses coordinates, depth and fields. -/
theorem reloads_changed_from_text :
    (let g := (empty .standard).run [.insert .loop, .setPosition 0 ⟨12345858901234.693, 0.0⟩];
      g.RootsFinite ∧ ∃ value w, Json.read g.toWorkspace.toJson.compact = .ok value ∧
        Workspace.decode value = .ok w ∧ ¬ g.ReloadsFrom .standard w id) ∧
    (let g := (empty .standard).run (nestLoops 64);
      g.RootsFinite ∧ Json.read g.toWorkspace.toJson.compact = .error .malformed) ∧
    (let g := (empty .standard).run
        [.insert .objectRef, .setField 0 fieldId (.float 9007199254740991.0)];
      g.RootsFinite ∧ ∃ value w, Json.read g.toWorkspace.toJson.compact = .ok value ∧
        Workspace.decode value = .ok w ∧ ¬ g.ReloadsFrom .standard w id) :=
  ⟨exists_root_elsewhere, read_nestLoops, exists_field_changed⟩

end Graph

end TaskDiagram
