import TaskDiagram.Proofs.Graph.Findings
import TaskDiagram.Proofs.Graph.Loading.References
import TaskDiagram.Proofs.Library.Repair

/-! # Resolving and checking agree

Resolving fills in the ids of references before a program is loaded; the check of the loaded diagram
asks the library for those ids. Both take what a reference refers to from its place, the one in the
program and the other in the kind of its block, so a library block is found unresolved exactly when
resolving could not help: the id is unknown, or there is none and no item goes by the name.
-/

namespace TaskDiagram

/-- The library has nothing for a reference: no item has its id, or there is no id and no item is
found by the name. -/
def Reference.Unmatched (catalog : Catalog) (kind : LibraryKind) (r : Reference) : Prop :=
  (∃ id, r.id = some id ∧ catalog.contains kind id = false) ∨
    (r.id = none ∧ ∀ name ∈ r.name, catalog.find? kind name = none)

/-- Whether a finding says that a reference is unresolved. -/
def WarningKind.isUnresolved : WarningKind → Bool
  | .unresolvedReference _ _ => true
  | _ => false

/-- A block is found to refer to nothing that the library has. -/
def Graph.IsUnresolved (g : Graph) (catalog : Catalog) (id : BlockId) : Prop :=
  ∃ w ∈ g.validate (some catalog), w.block = some id ∧ w.kind.isUnresolved = true

/-! ## Resolving single references -/

namespace Reference

variable {catalog : Catalog} {kind : LibraryKind} {r : Reference}

theorem contains_of_mem {item : LibraryItem} (h : item ∈ catalog.items kind) :
    catalog.contains kind item.id = true :=
  List.find?_isSome.mpr ⟨item, h, beq_self_eq_true _⟩

/-- An id that resolving fills in is that of an item. -/
theorem contains_of_resolve (hid : r.id = none) {id : Int64}
    (h : (r.resolve catalog kind).id = some id) : catalog.contains kind id = true := by
  rcases resolve_cases catalog kind r with hsame | ⟨-, item, hitem, hresolved⟩
  · rw [hsame, hid] at h
    cases h
  · rw [hresolved] at h
    obtain rfl := Option.some.inj h
    exact contains_of_mem hitem

/-- After resolving, a reference has an id that the library knows unless the library has nothing for
it. -/
theorem unmatched_iff : r.Unmatched catalog kind ↔
    ∀ id, (r.resolve catalog kind).id = some id → catalog.contains kind id = false := by
  obtain ⟨name, id⟩ := r
  cases id with
  | some id => simp [Unmatched, resolve_of_id]
  | none =>
      cases name with
      | none => simp [Unmatched, resolve]
      | some name =>
          cases hfind : catalog.find? kind name with
          | none => simp [Unmatched, resolve, hfind]
          | some item =>
              have hknown := contains_of_mem (Catalog.mem_items_of_find? hfind)
              simp [Unmatched, resolve, hfind, ofItem, hknown]

theorem isBlank_resolve : (r.resolve catalog kind).isBlank = r.isBlank := by
  rcases resolve_cases catalog kind r with hsame | ⟨hid, item, -, hresolved⟩
  · rw [hsame]
  · obtain ⟨name, id⟩ := r
    cases name with
    | none => rfl
    | some name => rw [hresolved]; rfl

end Reference

namespace Program

variable (catalog : Catalog) (p : Program)

theorem loaded?_resolve (place : ReferencePlace) : (p.resolve catalog).loaded? place =
    (p.loaded? place).map (Reference.resolve catalog place.entity) := by
  have hreads : (p.resolve catalog).reads place = p.reads place := by
    cases place with
    | step | controlStep => rfl
    | otherwiseStep index kind =>
        simp [reads, resolve, mapReferences, Control.mapReferences, Option.any_map]
    | target index =>
        have hevent := Control.eventType_mapReferences (Reference.resolve catalog)
        simp only [reads, resolve, getElem?_mapReferences, Option.any_map, hevent]
        rfl
  have hcompact : ∀ r : Option Reference,
      Reference.compact (r.map (Reference.resolve catalog place.entity)) =
        (Reference.compact r).map (Reference.resolve catalog place.entity) := by
    intro r
    cases r with
    | none => rfl
    | some r =>
        cases hblank : r.isBlank <;>
          simp [Reference.compact, Option.filter, Reference.isBlank_resolve, hblank]
  rw [loaded?, loaded?, hreads]
  split
  · rw [resolve, reference?_mapReferences, hcompact]
  · rfl

/-- Resolving does not change which references are loaded. -/
theorem loadedPlaces_resolve : (p.resolve catalog).loadedPlaces = p.loadedPlaces := by
  have hplaces : (p.resolve catalog).places = p.places := by
    simp [places, resolve, mapReferences]
  rw [loadedPlaces, loadedPlaces, hplaces]
  exact List.filter_congr fun place _ => by rw [loaded?_resolve, Option.isSome_map]

end Program

/-! ## Findings about references -/

namespace Graph

variable {g : Graph} {catalog : Catalog} {id : BlockId} {b : Block}

theorem isUnresolved_checkBranch {owner : Option BlockId} {ids : List BlockId} {w : Warning}
    (h : w ∈ g.checkBranch owner ids) : w.kind.isUnresolved = false := by
  rcases List.mem_append.mp h with hbranch | hmissing
  · obtain ⟨x, -, ⟨step, rfl⟩ | rfl⟩ := mem_branchFindings hbranch <;> rfl
  · obtain ⟨step, rfl⟩ := mem_missingSteps hmissing
    rfl

/-- Among the findings about a block only those about its reference say that it is unresolved. -/
theorem mem_blockFindings_iff {w : Warning} (hw : w.kind.isUnresolved = true) :
    w ∈ g.blockFindings (some catalog) id b ↔ w ∈ referenceFindings (some catalog) id b := by
  have hother : ∀ {P : Prop}, w.kind.isUnresolved = false → P := by
    intro P hfalse
    rw [hw] at hfalse
    cases hfalse
  constructor
  · intro h
    rcases List.mem_append.mp h with h | hbranch
    · rcases List.mem_append.mp h with h | hcount
      · rcases List.mem_append.mp h with hreference | hinput
        · exact hreference
        · obtain ⟨socket, rfl⟩ := mem_inputFindings hinput
          exact hother rfl
      · obtain rfl := mem_countFindings hcount
        exact hother rfl
    · obtain ⟨socket, -, hsocket⟩ := List.mem_flatMap.mp hbranch
      exact hother (isUnresolved_checkBranch hsocket)
  · exact fun h => List.mem_append_left _ (List.mem_append_left _ (List.mem_append_left _ h))

/-- Unless loading recorded it, a block is found unresolved by what it is and holds itself. -/
theorem isUnresolved_iff (hpinned : ∀ w ∈ g.pinned, w.kind.isUnresolved = false) :
    g.IsUnresolved catalog id ↔
      ∃ b, g.block? id = some b ∧ referenceFindings (some catalog) id b ≠ [] := by
  constructor
  · rintro ⟨w, hw, hblock, hkind⟩
    have hother : ∀ {P : Prop}, w.kind.isUnresolved = false → P := by
      intro P hfalse
      rw [hkind] at hfalse
      cases hfalse
    rcases List.mem_append.mp hw with hw | horphan
    · rcases List.mem_append.mp hw with hw | htop
      · rcases List.mem_append.mp hw with hpin | hblocks
        · exact hother (hpinned w hpin)
        · obtain ⟨⟨id', b⟩, hb, hfound⟩ := List.mem_flatMap.mp hblocks
          have hreference := (mem_blockFindings_iff hkind).mp hfound
          obtain ⟨entity, name, rfl⟩ := mem_referenceFindings hreference
          obtain rfl : id' = id := Option.some.inj hblock
          exact ⟨b, mem_blocks.mp hb, List.ne_nil_of_mem hreference⟩
      · exact hother (isUnresolved_checkBranch htop)
    · obtain ⟨head, -, hhead⟩ := List.mem_filterMap.mp horphan
      obtain ⟨kind, -, rfl⟩ := Option.map_eq_some_iff.mp hhead
      cases hkind
  · rintro ⟨b, hb, hfound⟩
    obtain ⟨w, hw⟩ := List.exists_mem_of_ne_nil _ hfound
    obtain ⟨entity, name, rfl⟩ := mem_referenceFindings hw
    refine ⟨.about id (.unresolvedReference entity name), List.mem_append_left _
      (List.mem_append_left _ (List.mem_append_right _ ?_)), rfl, rfl⟩
    exact List.mem_flatMap.mpr ⟨(id, b), mem_blocks.mpr hb, (mem_blockFindings_iff rfl).mpr hw⟩

/-- A library block is found unresolved unless it has an id that the library knows. -/
theorem isUnresolved_iff_of_entity (hpinned : ∀ w ∈ g.pinned, w.kind.isUnresolved = false)
    (hb : g.block? id = some b) {entity : LibraryKind} (hkind : b.kind = .ofEntity entity) :
    g.IsUnresolved catalog id ↔
      ∀ item, b.intField? fieldId = some item → catalog.contains entity item = false := by
  have hentity : b.kind.entity? = some entity := by
    rw [hkind]
    cases entity <;> rfl
  rw [isUnresolved_iff hpinned, hb]
  simp only [Option.some.injEq, exists_eq_left', ne_eq, referenceFindings_eq_nil_iff, hentity,
    forall_eq']
  cases b.intField? fieldId with
  | none => simp
  | some item => simp

theorem isUnresolved_refusal {s : Steps} {owner : BlockKind} {socket : SocketName}
    {kind : WarningKind} (h : kind ∈ s.refusal owner socket) : kind.isUnresolved = false := by
  unfold Steps.refusal at h
  split at h
  · cases h
  · obtain ⟨first, -, rfl⟩ := Option.map_eq_some_iff.mp (Option.mem_toList.mp h)
    rfl

theorem isUnresolved_findings {c : Control} {kind : WarningKind} (h : kind ∈ c.findings) :
    kind.isUnresolved = false := by
  unfold Control.findings at h
  split at h
  next block hblock =>
    rcases List.mem_append.mp h with h | hsecond
    · rcases List.mem_append.mp h with h | hbody
      · rcases List.mem_append.mp h with hcount | hevent
        · unfold Control.countFindings at hcount
          split at hcount
          next =>
            split at hcount
            · obtain rfl := List.mem_singleton.mp hcount
              rfl
            · cases hcount
          next => cases hcount
        · cases hguard : c.guard? block with
          | none =>
              rw [hguard] at hevent
              cases hevent
          | some e =>
              rw [hguard, Option.map_some, Option.getD_some, Event.findings] at hevent
              split at hevent
              · obtain rfl := List.mem_singleton.mp hevent
                rfl
              · cases hevent
      · exact isUnresolved_refusal hbody
    · exact isUnresolved_refusal hsecond
  next =>
    split at h
    · cases h
    · obtain rfl := List.mem_singleton.mp h
      rfl

section Loaded

variable (layout : Layout) (catalog : Catalog) (p : Program)

/-- Loading a program records nothing about unresolved references. -/
theorem isUnresolved_pinned :
    ∀ w ∈ (ofProgram .standard layout p).pinned, w.kind.isUnresolved = false := by
  intro w hw
  have hkind : w.kind ∈ (ofProgram .standard layout p).pinned.map (·.kind) := List.mem_map_of_mem hw
  rw [pinned_ofProgram] at hkind
  obtain ⟨c, -, hfound⟩ := List.mem_flatMap.mp hkind
  exact isUnresolved_findings hfound

/-- The library blocks of a loaded program stand for the references that are loaded, and are found
unresolved when those have no id that the library knows. -/
theorem isUnresolved_ofProgram :
    List.Forall₂ (fun place entry => ∃ r, p.loaded? place = some r ∧
      entry.2.kind = .ofEntity place.entity ∧ entry.2.fields = r.fields ∧
      ((ofProgram .standard layout p).IsUnresolved catalog entry.1 ↔
        ∀ id, r.id = some id → catalog.contains place.entity id = false))
      p.loadedPlaces (ofProgram .standard layout p).references := by
  refine (references_ofProgram layout p).imp fun place (id, b) ⟨r, hr, hb, hkind, hfields⟩ => ?_
  refine ⟨r, hr, hkind, hfields, ?_⟩
  have hid : b.intField? fieldId = r.id := by
    rw [Block.intField?, Block.field?, hfields, Reference.get?_fields, if_pos rfl]
    cases r.id <;> rfl
  rw [isUnresolved_iff_of_entity (isUnresolved_pinned layout p) hb hkind, hid]

end Loaded

/-- The library blocks of a program that was resolved and loaded are, one for one and in their
order, those of the references that are loaded from it. Such a block is found unresolved exactly
when its reference has an id that the library does not have, or no id and no name that finds an
item. So resolving first leaves no block unresolved that was not, and each id that it fills in is
known. -/
theorem resolving_and_checking_agree (layout : Layout) (catalog : Catalog) (p : Program) :
    let g := ofProgram .standard layout (p.resolve catalog)
    let plain := ofProgram .standard layout p
    List.Forall₂ (fun place entry => ∃ r, p.reference? place = some r ∧
      entry.2.kind = .ofEntity place.entity ∧
      entry.2.fields = (r.resolve catalog place.entity).fields ∧
      (g.IsUnresolved catalog entry.1 ↔ r.Unmatched catalog place.entity))
      p.loadedPlaces g.references ∧
    List.Forall₂ (fun before after => g.IsUnresolved catalog after.1 →
      plain.IsUnresolved catalog before.1) plain.references g.references ∧
    ∀ place r resolved, p.reference? place = some r →
      (p.resolve catalog).reference? place = some resolved → r.id = none →
      ∀ id, resolved.id = some id → catalog.contains place.entity id = true := by
  intro g plain
  have hplain := isUnresolved_ofProgram layout catalog p
  have hresolved := isUnresolved_ofProgram layout catalog (p.resolve catalog)
  rw [p.loadedPlaces_resolve catalog] at hresolved
  refine ⟨?_, ?_, ?_⟩
  · refine hresolved.imp fun place entry hentry => ?_
    obtain ⟨resolved, hloaded, hkind, hfields, hfound⟩ := hentry
    rw [Program.loaded?_resolve] at hloaded
    obtain ⟨r, hr, rfl⟩ := Option.map_eq_some_iff.mp hloaded
    exact ⟨r, Program.reference?_of_loaded? hr, hkind, hfields,
      hfound.trans Reference.unmatched_iff.symm⟩
  · refine (forall₂_meet hplain.flip hresolved.flip).imp fun before after hpair hafter => ?_
    obtain ⟨place, ⟨r, hr, -, -, hplainFound⟩, ⟨resolved, hloaded, -, -, hfound⟩⟩ := hpair
    rw [Program.loaded?_resolve, hr] at hloaded
    obtain rfl := Option.some.inj hloaded
    -- A reference that has an id is left as it was.
    refine hplainFound.mpr fun id hid => hfound.mp hafter id ?_
    rw [Reference.resolve_of_id (by rw [hid]; rfl), hid]
  · intro place r resolved hr hresolved hid id hid'
    rw [Program.resolve, Program.reference?_mapReferences, hr] at hresolved
    obtain rfl := Option.some.inj hresolved
    exact Reference.contains_of_resolve hid hid'

end Graph

end TaskDiagram
