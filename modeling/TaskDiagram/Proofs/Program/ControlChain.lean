import TaskDiagram.Proofs.Graph.Loading.Blocks
import TaskDiagram.Proofs.Graph.TopLevel
import TaskDiagram.Proofs.Program.RoundTrip

/-! # The chain of controls under any top level

The chain of controls of a loaded program goes behind the last step at the top level
where the grammar lets it, and otherwise stands on its own. It is saved again whatever
steps there are, unless it has gone behind a processing that nothing precedes: then its
chain may not stand at the top level, and is reported.
-/

namespace TaskDiagram

/-- The only step at the top level is a processing, and the first control may follow it. -/
structure Program.Stranded (p : Program) : Prop where
  pick : p.steps.pick = none
  processing : p.steps.processing.isSome
  place : p.steps.place = none
  first : ∃ c ∈ p.controls.head?, c.type = some .whenOtherwise

theorem Control.WellShaped.exists_kind {c : Control} (h : c.WellShaped) :
    ∃ kind, c.kind? = some kind ∧ c.type = Graph.controlType? kind := by
  obtain ⟨kind, hkind, -⟩ := Option.bind_eq_some_iff.mp h.normal?_eq
  exact ⟨kind, hkind, type_of_kind? hkind⟩

/-- Steps without a pick lead to controls when a processing is all there is and a two-way condition
comes first. -/
theorem Steps.leadTo_iff_of_unpicked {s : Steps} {cs : List Control} (hpick : s.pick = none)
    (hcs : ∀ c ∈ cs, c.WellShaped) : s.leadTo cs = true ↔
      s.processing.isSome ∧ s.place = none ∧ ∃ c ∈ cs.head?, c.type = some .whenOtherwise := by
  cases hplace : s.place with
  | some => simp [Steps.leadTo_of_place (s := s) (by simp [hplace])]
  | none =>
      obtain ⟨pick, processing, place⟩ := s
      obtain rfl : pick = none := hpick
      obtain rfl : place = none := hplace
      cases processing with
      | none => simp [Steps.leadTo, Steps.toList, StepKind.all, Steps.get]
      | some r =>
          cases cs with
          | nil => simp [Steps.leadTo]
          | cons c rest =>
              obtain ⟨kind, hkind, htype⟩ := (hcs c List.mem_cons_self).exists_kind
              have hlast : Grammar.standard.accepts .processing .next kind = true ↔
                  Graph.controlType? kind = some .whenOtherwise := by
                have hlogic := Graph.mem_logicKinds hkind
                revert hlogic
                cases kind <;> decide
              simpa [Steps.leadTo, Steps.toList, StepKind.all, Steps.get, hkind, htype,
                BlockKind.ofStep] using hlast

namespace Program

variable {p : Program}

theorem stranded_iff (hcontrols : ∀ c ∈ p.controls, c.WellShaped) :
    p.Stranded ↔ (p.steps.leadTo p.controls && p.steps.pick.isNone) = true := by
  rw [Bool.and_eq_true, Option.isNone_iff_eq_none]
  constructor
  · rintro ⟨hpick, hprocessing, hplace, hfirst⟩
    exact ⟨(Steps.leadTo_iff_of_unpicked hpick hcontrols).mpr ⟨hprocessing, hplace, hfirst⟩, hpick⟩
  · rintro ⟨hlead, hpick⟩
    obtain ⟨hprocessing, hplace, hfirst⟩ :=
      (Steps.leadTo_iff_of_unpicked hpick hcontrols).mp hlead
    exact ⟨hpick, hprocessing, hplace, hfirst⟩

/-- The chain of a stranded program begins with its processing and is reported. -/
theorem Stranded.exists_orphan (h : p.Stranded) (layout : Layout) :
    ∃ root, .about root (.orphanChain .processing) ∈
      (Graph.ofProgram .standard layout p).validate none := by
  obtain ⟨r, hr⟩ := Option.isSome_iff_exists.mp h.processing
  have hfirst : p.steps.first? = some .processing := by
    simp [Steps.first?, Steps.toList, StepKind.all, Steps.get, h.pick, hr, BlockKind.ofStep]
  obtain ⟨root, hroot, hkind⟩ := Graph.exists_root_of_first layout hfirst
  refine ⟨root, ?_⟩
  rw [Graph.validate_eq, List.mem_append]
  refine .inr (Graph.orphanChain_mem_found hkind (Graph.mem_orphans_of_not_root hroot hkind ?_))
  rw [Graph.grammar_ofProgram]
  rfl

end Program

/-- Controls that a diagram can hold as they are survive opening and saving whatever steps stand at
the top level, unless the first of them follows a processing that nothing precedes. Then none is
saved, and the chain they are in is reported. -/
theorem controls_survive_unless_stranded (layout : Layout) (p : Program)
    (hcontrols : ∀ c ∈ p.controls, c.WellShaped) :
    let loaded := Graph.ofProgram .standard layout p
    (¬ p.Stranded → loaded.toProgram.controls = p.controls) ∧
      (p.Stranded → loaded.toProgram.controls = [] ∧
        ∃ root, .about root (.orphanChain .processing) ∈ loaded.validate none) := by
  intro loaded
  have hsaved : loaded.toProgram = p.normal := toProgram_ofProgram_eq_normal layout p
  have hiff := Program.stranded_iff hcontrols
  rw [hsaved]
  unfold Program.normal
  rw [filterMap_normal?_eq hcontrols]
  constructor
  · intro hnot
    exact if_neg (mt hiff.mpr hnot)
  · intro hstranded
    exact ⟨if_pos (hiff.mp hstranded), hstranded.exists_orphan layout⟩

/-- A two-way condition, a movement in both of its branches. -/
def twoWayMovement : Control :=
  let movement : Steps := ⟨some ⟨some "A", some 1⟩, none, some ⟨some "B", some 2⟩⟩
  ⟨some .whenOtherwise, none, some ⟨some .sensor, none⟩, some movement, movement⟩

theorem wellShaped_twoWayMovement : twoWayMovement.WellShaped where
  known := .inr (.inr (.inr rfl))
  times := nofun
  unguarded := by simp [twoWayMovement]
  guarded := fun _ => ⟨_, rfl, .inr (.inl ⟨.inl rfl, rfl⟩)⟩
  otherwise := by simp [twoWayMovement]
  steps := fun hne => absurd rfl hne
  branches := by simp [twoWayMovement, Steps.ProcessPicked]

/-- A two-way condition below some steps. -/
def belowSteps (steps : Steps) : Program := ⟨steps, [twoWayMovement]⟩

theorem wellShaped_belowSteps (steps : Steps) :
    ∀ c ∈ (belowSteps steps).controls, c.WellShaped := by
  intro c hc
  obtain rfl := List.mem_singleton.mp hc
  exact wellShaped_twoWayMovement

/-- With a pick before the processing the condition is saved, without it it is not. -/
theorem two_way_condition_below_processing :
    let process : Reference := ⟨some "A", some 1⟩
    let moved := belowSteps ⟨some .blank, some process, none⟩
    let alone := belowSteps ⟨none, some process, none⟩
    (∀ c ∈ moved.controls, c.WellShaped) ∧
      (Graph.ofProgram .standard .standard moved).toProgram.controls = moved.controls ∧
      (∀ c ∈ alone.controls, c.WellShaped) ∧
      (Graph.ofProgram .standard .standard alone).toProgram.controls = [] := by
  intro process moved alone
  have hmoved := wellShaped_belowSteps ⟨some .blank, some process, none⟩
  have halone := wellShaped_belowSteps ⟨none, some process, none⟩
  have hpicked : ¬ moved.Stranded := by
    rintro ⟨⟨⟩⟩
  have hstranded : alone.Stranded := ⟨rfl, rfl, rfl, _, rfl, rfl⟩
  exact ⟨hmoved, (controls_survive_unless_stranded .standard moved hmoved).1 hpicked, halone,
    ((controls_survive_unless_stranded .standard alone halone).2 hstranded).1⟩

/-- Controls that a diagram can hold as they are do not survive every top level. -/
theorem controls_lost_below_lone_processing :
    let p := belowSteps ⟨none, some ⟨some "A", some 1⟩, none⟩
    (∀ c ∈ p.controls, c.WellShaped) ∧
      (Graph.ofProgram .standard .standard p).toProgram.controls ≠ p.controls := by
  refine ⟨wellShaped_belowSteps _, ?_⟩
  rw [toProgram_ofProgram_eq_normal]
  decide

end TaskDiagram
