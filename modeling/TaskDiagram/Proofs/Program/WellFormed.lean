import TaskDiagram.Proofs.Graph.Resaving

/-! # Well-formed programs

The form that every saved program has, however unfinished the diagram is: steps begin with a
pick unless a guarded control leaves a lone place, and each control has the data that belong to
its type and no others.
-/

namespace TaskDiagram

/-- The type is known if it is set, and an object stands only with the search for it. -/
structure Event.WellFormed (e : Event) : Prop where
  known : ∀ type ∈ e.type, type.isKnown = true
  target : e.findObject.isSome → e.type = some .findObject

/-- A control with the data that belong to its type. A lone place may stand in the branches of a
control with an otherwise. -/
structure Control.WellFormed (c : Control) : Prop where
  known : ∃ type, c.type = some type ∧ type.isKnown = true
  times : ∀ n, c.times = some n → c.type = some .repeated ∧ 1 ≤ n ∧ n ≤ 99
  guarded : c.event.isSome ↔ c.type = some .when ∨ c.type = some .whenOtherwise
  event : ∀ e, c.event = some e → e.WellFormed
  otherwise : c.otherwise.isSome ↔ c.type = some .whenOtherwise
  steps : c.steps.ProcessPicked ∧ (c.type ≠ some .whenOtherwise → c.steps.BeginWithPick)
  otherwiseSteps : ∀ s, c.otherwise = some s → s.ProcessPicked

structure Program.WellFormed (p : Program) : Prop where
  steps : p.steps.BeginWithPick
  controls : ∀ c ∈ p.controls, c.WellFormed

/-- What opening and saving would drop decides nothing about the form of a control. -/
theorem Control.WellFormed.of_tidy {c : Control} (h : c.tidy.WellShaped)
    (hevent : ∀ e, c.event = some e → e.WellFormed) : c.WellFormed where
  known := by
    obtain htype | htype | htype | htype := h.known
    all_goals exact ⟨_, htype, rfl⟩
  times := h.times
  guarded := by
    have htidy : c.tidy.event.isSome = c.event.isSome := Option.isSome_map
    rw [← htidy]
    constructor
    · intro hsome
      have hguarded : ¬ (c.type = some .loop ∨ c.type = some .repeated) := by
        intro hplain
        rw [h.unguarded hplain] at hsome
        cases hsome
      rcases h.known with htype | htype | htype | htype
      · exact absurd (.inl htype) hguarded
      · exact absurd (.inr htype) hguarded
      · exact .inl htype
      · exact .inr htype
    · intro hguarded
      obtain ⟨e, he, -⟩ := h.guarded hguarded
      rw [he]
      rfl
  event := hevent
  otherwise := h.otherwise
  steps := by
    refine ⟨?_, h.steps⟩
    by_cases htype : c.type = some .whenOtherwise
    · exact (h.branches htype).1
    · exact fun hprocessing => h.steps htype (.inl hprocessing)
  otherwiseSteps := by
    intro s hs
    have htype : c.type = some .whenOtherwise := h.otherwise.mp (Option.isSome_of_eq_some hs)
    exact (h.branches htype).2 s hs

namespace Graph

variable {g : Graph}

theorem wellFormed_readEvent (g : Graph) (id : BlockId) : (g.readEvent id).WellFormed := by
  rcases g.readEvent_cases id with h | h | h | ⟨target, h⟩ <;> rw [h]
  · exact ⟨nofun, nofun⟩
  · exact ⟨fun type hmem => Option.some.inj hmem ▸ rfl, nofun⟩
  · exact ⟨fun type hmem => Option.some.inj hmem ▸ rfl, nofun⟩
  · exact ⟨fun type hmem => Option.some.inj hmem ▸ rfl, fun _ => rfl⟩

/-- Every event of a saved program is read from a block of the diagram. -/
theorem Edited.wellFormed_event (h : g.Edited) {c : Control} (hc : c ∈ g.toProgram.controls) :
    ∀ e, c.event = some e → e.WellFormed := by
  obtain ⟨id, kind, type, -, -, rfl⟩ := h.exists_controlAs hc
  intro e he
  simp only [controlAs] at he
  split at he
  · exact Option.some.inj he ▸ wellFormed_readEvent g id
  · cases he

theorem Edited.wellFormed_toProgram (h : g.Edited) : g.toProgram.WellFormed where
  steps := h.beginWithPick_steps
  controls := by
    intro c hc
    have htidy : g.toProgram.tidy.WellShaped := h.normal_toProgram ▸ wellShaped_normal g.toProgram
    exact .of_tidy (htidy.controls c.tidy (List.mem_map_of_mem hc)) (h.wellFormed_event hc)

/-- Whatever edits have made of a diagram, what is saved of it is well formed. -/
theorem saved_programs_are_wellFormed (edits : List GraphEdit) :
    ((empty .standard).run edits).toProgram.WellFormed :=
  (edited_run edits).wellFormed_toProgram

end Graph

end TaskDiagram
