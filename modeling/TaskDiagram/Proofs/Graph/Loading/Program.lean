import TaskDiagram.Proofs.Graph.Loading.Controls

/-! # Loading programs

The trees of a loaded program, and the findings of loading it, are exactly those that
are written down for it without a diagram.
-/

namespace TaskDiagram.Graph

variable {g g' : Graph}

theorem face?_modify_position (g : Graph) (target : BlockId) (position : Option Position)
    (id : BlockId) : (g.modify target fun b => { b with position := position }).face? id =
      g.face? id := by
  rw [face?, block?_modify, Option.map_map, face?]
  congr 1
  funext b
  dsimp only [Function.comp]
  split <;> rfl

/-- Coordinates are all that placing roots changes. -/
theorem placeRoots_extends (hg : g.IsForest) (layout : Layout) (index : Nat)
    (roots : List BlockId) :
    g.Extends (placeRoots layout index roots g) Untouched [] ∧
      (placeRoots layout index roots g).nextId = g.nextId ∧
      (placeRoots layout index roots g).roots = g.roots := by
  induction roots generalizing g index with
  | nil => exact ⟨.refl hg _, rfl, rfl⟩
  | cons root rest ih =>
      have hplaced : g.Extends
          (g.modify root fun b => { b with position := some (layout.position index) })
          Untouched [] :=
        { forest := hg.modify root (fun _ => rfl) (fun _ => rfl) (fun _ => rfl)
          grammar := grammar_modify _ _ _
          nextId_le := Nat.le_of_eq (nextId_modify _ _ _).symm
          face? := fun id _ _ => face?_modify_position _ _ _ id
          pinned := by rw [pinned_modify, List.append_nil] }
      obtain ⟨hext, hnext, hroots⟩ := ih hplaced.forest (index + 1)
      exact ⟨hplaced.trans hext fun _ _ hor => hor.elim id id, hnext.trans (nextId_modify _ _ _),
        hroots.trans (roots_modify _ _ _)⟩

variable (layout : Layout) (p : Program)

theorem adds_ofProgram : (empty .standard).Adds (ofProgram .standard layout p) Untouched p.trees
    (p.controls.flatMap Control.findings) := by
  have hbuilt := adds_program (isForest_empty .standard) rfl p
  obtain ⟨hext, hnext, hroots⟩ :=
    placeRoots_extends hbuilt.forest layout 0 (Build.program p (empty .standard)).2.roots
  have hplaced : (Build.program p (empty .standard)).2.Adds (ofProgram .standard layout p)
      Untouched [] [] := ⟨hext, [], by rw [List.append_nil]; exact hroots, .nil⟩
  simpa using hbuilt.trans hplaced nofun

theorem isForest_ofProgram : (ofProgram .standard layout p).IsForest :=
  (adds_ofProgram layout p).forest

theorem grammar_ofProgram : (ofProgram .standard layout p).grammar = .standard :=
  (adds_ofProgram layout p).grammar

/-- The trees of a loaded program are those that were written down for it. -/
theorem forest_ofProgram : (ofProgram .standard layout p).forest = p.trees := by
  obtain ⟨beside, hroots, hshows⟩ := (adds_ofProgram layout p).roots
  have hroots : (ofProgram .standard layout p).roots = beside := hroots
  exact (isForest_ofProgram layout p).forest_eq (hroots ▸ hshows)

/-- The findings of loading, without the blocks they point at. -/
theorem pinned_ofProgram : (ofProgram .standard layout p).pinned.map (·.kind) =
    p.controls.flatMap Control.findings :=
  (adds_ofProgram layout p).pinned

/-- Loading finds nothing when it finds nothing about any control. -/
theorem pinned_ofProgram_eq_nil_iff :
    (ofProgram .standard layout p).pinned = [] ↔ ∀ c ∈ p.controls, c.findings = [] := by
  rw [← List.map_eq_nil_iff, pinned_ofProgram, List.flatMap_eq_nil_iff]

/-- What opening and saving makes of a program can be read off its trees. -/
theorem toProgram_ofProgram :
    (ofProgram .standard layout p).toProgram = Tree.toProgram .standard p.trees := by
  rw [(isForest_ofProgram layout p).toProgram_eq, grammar_ofProgram, forest_ofProgram]

end TaskDiagram.Graph
