import TaskDiagram.Proofs.Graph.Loading.Resolving
import TaskDiagram.Proofs.Json.WholeNumbers
import TaskDiagram.Proofs.Workspace.Written

/-! # Ids in workspaces

A library block takes an id that is a whole number without a report, however large the number is.
Saving and checking read the nearest number of 64 bits. So an id of 64 bits stays what it is, and
any other id is changed without a word.
-/

namespace TaskDiagram

open Decimal

theorem WarningKind.isUnresolved_of_field? {kind : WarningKind} {name : String}
    (h : kind.field? = some name) : kind.isUnresolved = false := by
  cases kind with
  | unresolvedReference => cases h
  | _ => rfl

theorem WarningKind.isUnresolved_of_isRejection {kind : WarningKind}
    (h : kind.isRejection = true) : kind.isUnresolved = false := by
  cases kind with
  | unresolvedReference => cases h
  | _ => rfl

/-- An id is admitted when it is a whole number. -/
theorem Grammar.checkField_id {entity : LibraryKind} {v : FieldValue} (h : v.asInt.isSome) :
    standard.checkField (.ofEntity entity) fieldId v = .ok () := by
  obtain ⟨n, hn⟩ := Option.isSome_iff_exists.mp h
  have hspec : standard.field? (.ofEntity entity) fieldId = some ⟨fieldId, .integer, none⟩ := by
    cases entity <;> rfl
  simp only [checkField, hspec, hn]

namespace Graph

variable {g : Graph} {q : Numbered} {nodes : List Numbered} {id : BlockId}

/-- Loading a workspace records nothing about unresolved references. -/
theorem Accounts.isUnresolved_pinned {grammar : Grammar} (h : (empty grammar).Accounts g nodes) :
    ∀ w ∈ g.pinned, w.kind.isUnresolved = false := by
  intro w hw
  obtain ⟨q, -, hreport⟩ := List.mem_flatMap.mp (h.pinned.mem_iff.mp hw)
  rw [Numbered.reports, reportsAt] at hreport
  obtain ⟨report, hmem, rfl⟩ := List.mem_map.mp hreport
  rcases List.mem_append.mp hmem with hfield | hlink
  · obtain ⟨-, name, value, -, hfound⟩ := Grammar.of_mem_fieldReports hfield
    exact WarningKind.isUnresolved_of_field? (Grammar.of_mem_report hfound).1
  · exact WarningKind.isUnresolved_of_isRejection (Numbered.of_mem_linkReports hlink).2.1

/-- What saving and checking make of an id that a block holds. -/
theorem id_of_block {b : Block} {entity : LibraryKind} {n : Int64} (hb : g.block? id = some b)
    (hkind : b.kind = .ofEntity entity) (hid : b.intField? fieldId = some n) (catalog : Catalog)
    (hpinned : ∀ w ∈ g.pinned, w.kind.isUnresolved = false) :
    (∀ owner socket, g.child? owner socket = some id →
      (g.readReference owner socket).id = some n) ∧
    (g.IsUnresolved catalog id ↔ catalog.contains entity n = false) := by
  constructor
  · intro owner socket hchild
    rw [readReference, hchild, Option.bind_some, hb]
    exact hid
  · simp [isUnresolved_iff_of_entity hpinned hb hkind, hid]

/-- A value that the grammar admits is kept as it is given, and nothing is reported of it. -/
theorem Accounts.kept_of_admitted {grammar : Grammar} (h : (empty grammar).Accounts g nodes)
    (hnodup : (nodes.map (·.id)).Nodup) (hq : q ∈ nodes) {name : String} {v : FieldValue}
    (hgiven : q.fields.get? name = some v) (hadmitted : grammar.checkField q.kind name v = .ok ()) :
    (g.findingsAt q.id).filter (·.field? = some name) = [] ∧
      ∃ b, g.block? q.id = some b ∧ b.kind = q.kind ∧ b.field? name = some v := by
  have hreceived := Grammar.receive_of_ok hadmitted
  have hreports := h.fieldFindings hnodup hq name
  obtain ⟨b, hb, hkind, hfields, -⟩ := h.settled q hq
  have hheld := hfields name
  have hgrammar : g.grammar = grammar := h.grammar
  rw [hgiven, Option.bind_some, hreceived] at hreports
  rw [hgrammar, Grammar.received?, hgiven, Option.bind_some, hreceived] at hheld
  exact ⟨hreports, b, hb, hkind, hheld⟩

/-- The node that is written in a place has the block of that number. -/
theorem exists_numbered {value node : Json} {p : Payload} (hp : Payload.decode value = .ok p)
    (layout : Layout) (hnode : (p.writtenNodes value)[id]? = some node) :
    ∃ q ∈ p.toWorkspace.numbered .standard, q.id = id ∧ node.Describes q := by
  have hpaired := Payload.forall₂_numbered .standard hp
  obtain ⟨-, hids⟩ := accounts_ofWorkspace Grammar.boundsOrdered_standard layout p.toWorkspace
  obtain ⟨hlt, rfl⟩ := List.getElem?_eq_some_iff.mp hnode
  have hlt' : id < (p.toWorkspace.numbered .standard).length := hpaired.length_eq ▸ hlt
  refine ⟨_, List.getElem_mem hlt', ?_, hpaired.get hlt hlt'⟩
  have hid : ((p.toWorkspace.numbered .standard).map (·.id))[id]? = some
      (p.toWorkspace.numbered .standard)[id].id := by
    rw [List.getElem?_map, List.getElem?_eq_getElem hlt']
    rfl
  have hcount := congrArg List.length hids
  rw [List.length_map, List.length_range] at hcount
  rw [hids, List.getElem?_range (hcount ▸ hlt')] at hid
  exact (Option.some.inj hid).symm

/-- A library block of a payload takes every id that is written as a whole number, and loading
reports nothing of it. Saving writes the nearest number of 64 bits, and the check looks it up. That
is the number itself when it has 64 bits, and otherwise another. -/
theorem written_id_is_read_as_nearest (layout : Layout) (catalog : Catalog) {value : Json}
    {p : Payload} (hp : Payload.decode value = .ok p) {id : BlockId} {node : Json}
    (hnode : (p.writtenNodes value)[id]? = some node) {entity : LibraryKind}
    (hkind : node.nodeKind? = some (.ofEntity entity)) {n : Int} {s : String}
    (hs : Json.IsNumeral n s) {j : Json} (hread : Json.read s = .ok j)
    (hid : node.nodeField? fieldId = some j) :
    let g := ofWorkspace .standard layout p.toWorkspace
    (g.findingsAt id).filter (·.field? = some fieldId) = [] ∧
    (∃ b, g.block? id = some b ∧ b.kind = .ofEntity entity ∧
      b.intField? fieldId = some (saturate n)) ∧
    (∀ owner socket, g.child? owner socket = some id →
      (g.readReference owner socket).id = some (saturate n)) ∧
    (g.IsUnresolved catalog id ↔ catalog.contains entity (saturate n) = false) ∧
    ((saturate n).toInt = n ↔ fitsInt64 n = true) := by
  intro g
  obtain ⟨haccounts, hids⟩ :=
    accounts_ofWorkspace Grammar.boundsOrdered_standard layout p.toWorkspace
  obtain ⟨q, hq, rfl, hdescribes⟩ := exists_numbered hp layout hnode
  obtain ⟨v, hv, hn⟩ := FieldValue.asInt_of_read hs hread
  have hgiven : q.fields.get? fieldId = some v := by
    have hfield := hdescribes.fields fieldId
    rw [hid] at hfield
    generalize q.fields.get? fieldId = given at hfield ⊢
    cases hfield with
    | some hfield => exact congrArg some (Except.ok.inj (hfield.symm.trans hv))
  have hqkind : q.kind = .ofEntity entity := Option.some.inj (hdescribes.kind.symm.trans hkind)
  have hadmitted : Grammar.standard.checkField q.kind fieldId v = .ok () := by
    rw [hqkind]
    exact Grammar.checkField_id (by rw [hn]; rfl)
  obtain ⟨hreports, b, hb, hbkind, hheld⟩ :=
    haccounts.kept_of_admitted (hids ▸ List.nodup_range) hq hgiven hadmitted
  have hbid : b.intField? fieldId = some (saturate n) := by
    rw [Block.intField?, hheld, Option.bind_some, hn]
  obtain ⟨hsaved, hchecked⟩ :=
    id_of_block hb (hbkind.trans hqkind) hbid catalog haccounts.isUnresolved_pinned
  exact ⟨hreports, ⟨b, hb, hbkind.trans hqkind, hbid⟩, hsaved, hchecked, toInt_saturate_eq_iff⟩

/-- A pick with the id of its object. -/
def pickWithId (id : Json) : Json :=
  .obj [("kind", .str "pick"), ("inputs", .obj [("OBJECT",
    .obj [("kind", .str "object_ref"), ("fields", .obj [("name", .str "cup"), ("id", id)])])])]

theorem id_beyond_64_bits_is_read_as_bound :
    let value := pickWithId (.int 9223372036854775808)
    ∃ p, Payload.decode value = .ok p ∧
      let g := ofWorkspace .standard .standard p.toWorkspace
      (g.findingsAt 1).filter (·.field? = some fieldId) = [] ∧
      (∃ b, g.block? 1 = some b ∧ b.kind = .objectRef ∧
        b.intField? fieldId = some 9223372036854775807) ∧
      (∀ owner socket, g.child? owner socket = some 1 →
        (g.readReference owner socket).id = some 9223372036854775807) := by
  intro value
  refine ⟨_, rfl, ?_⟩
  have hread : Json.read "9223372036854775808" = .ok (.int 9223372036854775808) := rfl
  have hkept := @written_id_is_read_as_nearest .standard .empty value _ rfl 1 _ rfl .object rfl
    9223372036854775808 "9223372036854775808" (.inl ⟨by decide, rfl⟩) _ hread rfl
  exact ⟨hkept.1, hkept.2.1, hkept.2.2.1⟩

/-- An id beyond 64 bits becomes the id of an item, and nothing is said of it: loading reports
nothing at all, the pick is saved with the other id, and the check has nothing to say of the
object. -/
theorem large_id_becomes_another :
    let catalog : Catalog := ⟨[⟨9223372036854775807, "cup", none⟩], [], []⟩
    Json.read "9223372036854775808" = .ok (.int 9223372036854775808) ∧
    ∃ p, Payload.decode (pickWithId (.int 9223372036854775808)) = .ok p ∧
      let g := ofWorkspace .standard .standard p.toWorkspace
      g.pinned = [] ∧
      g.toProgram.steps.pick = some ⟨some "cup", some 9223372036854775807⟩ ∧
      ∀ w ∈ g.validate (some catalog), w.block ≠ some 1 :=
  ⟨rfl, _, rfl, rfl, by decide +kernel, by decide +kernel⟩

end Graph

end TaskDiagram
