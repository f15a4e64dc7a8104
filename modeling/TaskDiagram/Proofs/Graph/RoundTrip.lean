import TaskDiagram.Proofs.Graph.CleanRoots
import TaskDiagram.Proofs.Graph.Isomorphism

/-! # Diagrams without findings survive saving

A diagram that edits under the standard grammar lead to, in whatever order, is saved
and loaded again into one of the same structure when nothing is found about it.
-/

namespace TaskDiagram

def FieldValue.isFloat : FieldValue → Bool
  | float _ => true
  | _ => false

/-! ## Loaded diagrams hold exact values -/

/-- The fields of a reference are a text and a whole number. -/
theorem exact_reference (r : Reference) : r.fields.Exact := by
  intro name value hvalue
  rw [Reference.get?_fields] at hvalue
  split at hvalue
  · obtain ⟨n, -, rfl⟩ := Option.map_eq_some_iff.mp hvalue
    trivial
  · split at hvalue
    · obtain ⟨s, -, rfl⟩ := Option.map_eq_some_iff.mp hvalue
      trivial
    · cases hvalue

theorem exact_bare (kind : BlockKind) : (Tree.node kind .empty []).Exact :=
  .node FieldMap.exact_empty nofun

theorem exact_holding (kind : BlockKind) (entity : LibraryKind) (r : Reference) :
    (Tree.holding kind entity r).Exact := by
  apply (exact_bare kind).plug _
  intro u hu
  unfold Reference.tree? at hu
  split at hu
  · cases hu
  · obtain rfl := Option.some.inj hu
    exact .node (exact_reference r) nofun

/-- A chain of exact links is exact. -/
theorem exact_nest {links : List Tree} (h : ∀ t ∈ links, t.Exact) :
    ∀ u ∈ Tree.nest links, u.Exact := by
  induction links with
  | nil => nofun
  | cons t rest ih =>
      rintro u hu
      obtain rfl := Option.some.inj hu
      exact (h t List.mem_cons_self).plug .next (ih fun u hu => h u (List.mem_cons_of_mem _ hu))

/-- The chain of steps holds exact values, and so does any part of it. -/
theorem exact_steps (s : Steps) : ∀ u ∈ s.tree?, u.Exact := by
  apply exact_nest
  intro t ht
  obtain ⟨⟨kind, r⟩, -, rfl⟩ := List.mem_map.mp ht
  exact exact_holding _ _ r

theorem exact_plugged (s : Steps) (kind : BlockKind) (socket : SocketName) :
    ∀ u ∈ s.plugged kind socket, u.Exact := by
  unfold Steps.plugged
  split
  · exact exact_steps s
  · nofun

theorem exact_detached (s : Steps) (kind : BlockKind) (socket : SocketName) :
    ∀ u ∈ s.detached kind socket, u.Exact := by
  unfold Steps.detached
  split
  · nofun
  · exact fun u hu => exact_steps s u (Option.mem_toList.mp hu)

/-- The block of an event holds exact values. -/
theorem exact_event (e : Event) : ∀ u ∈ e.tree?, u.Exact := by
  intro u hu
  unfold Event.tree? at hu
  split at hu
  · obtain rfl := Option.some.inj hu
    exact exact_bare _
  · obtain rfl := Option.some.inj hu
    exact exact_bare _
  · obtain rfl := Option.some.inj hu
    exact exact_holding _ _ _
  · cases hu

/-- The logic block of a control, with all that is plugged into it, holds exact values. -/
theorem exact_control (c : Control) (kind : BlockKind) : (c.tree kind).Exact := by
  have hfields : (c.fields kind).Exact := by
    unfold Control.fields
    split
    · exact FieldMap.exact_empty.insert trivial
    · exact FieldMap.exact_empty
  have hevent : ∀ u ∈ (c.guard? kind).bind Event.tree?, u.Exact := by
    intro u hu
    obtain ⟨e, -, he⟩ := Option.bind_eq_some_iff.mp hu
    exact exact_event e u he
  have hempty : (Tree.node kind (c.fields kind) []).Exact := .node hfields nofun
  exact ((hempty.plug .when hevent).plug .body (exact_plugged c.steps kind .body)).plug .otherwise
    (exact_plugged (c.second kind) kind .otherwise)

/-- The chains that are left beside the logic block of a control hold exact values. -/
theorem exact_strays (c : Control) : ∀ u ∈ c.strays, u.Exact := by
  intro u hu
  unfold Control.strays at hu
  split at hu
  · rcases List.mem_append.mp hu with hu | hu
    · exact exact_detached _ _ _ u hu
    · exact exact_detached _ _ _ u hu
  · split at hu
    · cases hu
    · exact exact_steps _ u (Option.mem_toList.mp hu)

theorem exact_controlTrees (cs : List Control) : ∀ u ∈ Control.trees cs, u.Exact := by
  intro u hu
  obtain ⟨c, kind, -, rfl⟩ := mem_trees hu
  exact exact_control c kind

theorem exact_flatMap_strays (cs : List Control) : ∀ u ∈ cs.flatMap Control.strays, u.Exact := by
  intro u hu
  obtain ⟨c, -, hc⟩ := List.mem_flatMap.mp hu
  exact exact_strays c u hc

theorem exact_roots (cs : List Control) : ∀ u ∈ Control.roots cs, u.Exact := by
  induction cs with
  | nil => nofun
  | cons c rest ih =>
      intro u hu
      unfold Control.roots at hu
      split at hu
      · rcases List.mem_append.mp hu with hu | hu
        · exact exact_strays c u hu
        · exact ih u hu
      next kind _ =>
        rcases List.mem_append.mp hu with hu | hu
        · rcases List.mem_append.mp hu with hu | hu
          · refine exact_nest (fun t ht => ?_) u (Option.mem_toList.mp hu)
            rcases List.mem_cons.mp ht with rfl | ht
            · exact exact_control c kind
            · exact exact_controlTrees rest t ht
          · exact exact_strays c u hu
        · exact exact_flatMap_strays rest u hu

/-- Every tree of a loaded program holds exact values. -/
theorem exact_trees (p : Program) : ∀ u ∈ p.trees, u.Exact := by
  intro u hu
  unfold Program.trees at hu
  split at hu
  · rcases List.mem_append.mp hu with hu | hu
    · refine exact_nest (fun t ht => ?_) u (Option.mem_toList.mp hu)
      rcases List.mem_append.mp ht with ht | ht
      · obtain ⟨⟨kind, r⟩, -, rfl⟩ := List.mem_map.mp ht
        exact exact_holding _ _ r
      · exact exact_controlTrees _ t ht
    · exact exact_flatMap_strays _ u hu
  · rcases List.mem_append.mp hu with hu | hu
    · exact exact_steps _ u (Option.mem_toList.mp hu)
    · exact exact_roots _ u hu

/-- A value that may be put into a field is exact unless it is a double. -/
theorem Grammar.exact_of_checkField {grammar : Grammar} {kind : BlockKind} {name : String}
    {value : FieldValue} (h : grammar.checkField kind name value = .ok ())
    (hwhole : ∀ x, value ≠ .float x) : value.Exact := by
  cases value with
  | int => trivial
  | text => trivial
  | float x => exact absurd rfl (hwhole x)
  | bool b =>
      unfold Grammar.checkField at h
      cases hspec : grammar.field? kind name with
      | none => simp [hspec] at h
      | some spec =>
          simp only [hspec, FieldValue.asInt] at h
          cases htype : spec.type <;> simp [htype] at h

namespace Graph

/-- No block keeps a number as a double. -/
def WholeNumbers (g : Graph) : Prop :=
  ∀ id b name x, g.block? id = some b → b.field? name ≠ some (.float x)

/-- Whether a diagram keeps a number as a double can be told from its list of blocks. -/
theorem wholeNumbers_iff {g : Graph} : g.WholeNumbers ↔
    ∀ entry ∈ g.blocks, ∀ field ∈ entry.2.fields.entries, field.2.isFloat = false := by
  constructor
  · rintro h ⟨id, b⟩ hb ⟨name, value⟩ hfield
    cases value with
    | float x =>
        have hget := (mem_iff_findValue? b.fields.increasing name (.float x)).mp hfield
        exact absurd hget (h id b name x (mem_blocks.mp hb))
    | _ => rfl
  · intro h id b name x hb hget
    have hfield := (mem_iff_findValue? b.fields.increasing name (.float x)).mpr hget
    cases h (id, b) (mem_blocks.mpr hb) (name, .float x) hfield

instance (g : Graph) : Decidable g.WholeNumbers := decidable_of_iff _ wholeNumbers_iff.symm

/-- A grammar admits no values but exact ones and doubles. -/
theorem FieldsAdmitted.exactFields {g : Graph} (h : g.FieldsAdmitted) (hwhole : g.WholeNumbers) :
    g.ExactFields := by
  intro id b hb name value hvalue
  apply Grammar.exact_of_checkField (h id b hb name value hvalue)
  rintro x rfl
  exact hwhole id b name x hb hvalue

/-- The fields of a loaded diagram are exact. -/
theorem exactFields_ofProgram (layout : Layout) (p : Program) :
    (ofProgram .standard layout p).ExactFields := by
  apply (isForest_ofProgram layout p).exactFields
  intro t ht
  rw [forest_ofProgram] at ht
  exact exact_trees p t ht

/-- An edited diagram about which nothing is found is clean. -/
theorem clean_run {edits : List GraphEdit}
    (h : ((empty .standard).run edits).validate none = []) :
    ((empty .standard).run edits).Clean :=
  have hedited := edited_run edits
  ⟨hedited.forest, hedited.grammar, hedited.fields, h⟩

/-- A diagram built under the standard grammar, in whatever order, about which nothing is found
has the structure of the diagram that is loaded from its program: its blocks correspond one to
one, with the same kinds, links and fields, and the fields are read alike. When it keeps no
number as a double, the two are isomorphic. -/
theorem silent_diagram_survives_saving (layout : Layout) (edits : List GraphEdit)
    (h : ((empty .standard).run edits).validate none = []) :
    let g := (empty .standard).run edits
    let loaded := ofProgram .standard layout g.toProgram
    (∃ f, g.SameStructure loaded f) ∧ (g.WholeNumbers → g.isIsomorphic loaded = true) := by
  intro g loaded
  have hclean : g.Clean := clean_run h
  have hforest : loaded.IsForest := isForest_ofProgram layout _
  have hshown : List.Forall₂ loaded.Resembles g.toProgram.trees loaded.roots := by
    have hshows := hforest.forall₂_forest
    rw [show loaded.forest = g.toProgram.trees from forest_ofProgram layout _] at hshows
    exact hshows.imp fun t root hroot => hforest.resembles hroot
  obtain ⟨roots, hperm, hresembles⟩ := hclean.exists_roots
  obtain ⟨f, hf⟩ := exists_sameStructure hclean.forest hforest hperm hresembles hshown
  refine ⟨⟨f, hf⟩, fun hwhole => ?_⟩
  exact hf.isIsomorphic hclean.forest hforest (hclean.fields.exactFields hwhole)
    (exactFields_ofProgram layout _)

/-- A movement of one item, put together from its end. -/
def oneMovement : List GraphEdit :=
  [.insert .place, .insert .locationRef, .insert .pick, .insert .objectRef,
    .setField 1 fieldId (.int 4), .setField 3 fieldId (.int 7), .connect 2 .next 0,
    .connect 0 .location 1, .connect 2 .object 3]

theorem one_movement_survives_saving :
    let g := (empty .standard).run oneMovement
    let loaded := ofProgram .standard .standard g.toProgram
    g.validate none = [] ∧ (∃ f, g.SameStructure loaded f) ∧ g.isIsomorphic loaded = true := by
  have hsilent : ((empty .standard).run oneMovement).validate none = [] := by decide
  have hwhole : ((empty .standard).run oneMovement).WholeNumbers := by decide
  have h := silent_diagram_survives_saving .standard oneMovement hsilent
  exact ⟨hsilent, h.1, h.2 hwhole⟩

end Graph

end TaskDiagram
