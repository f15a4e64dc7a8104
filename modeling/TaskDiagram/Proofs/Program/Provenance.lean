import TaskDiagram.Program.Draft
import TaskDiagram.Proofs.Graph.Accounting
import TaskDiagram.Proofs.Program.Leaves
import TaskDiagram.Proofs.Program.RoundTrip

/-! # Where saved leaves come from

Opening a program and saving it again may lose leaves, and it invents none. When all controls are
of known type, whatever is saved stood under the same path with the same value, but for the count
of a repetition that was moved to the nearer of its bounds.
-/

namespace TaskDiagram

/-- The control with the count of a repetition moved to the nearer bound if it is below 1 or
above 99. -/
def Control.bounded (c : Control) : Control :=
  { c with
    times :=
      if c.type = some .repeated then
        c.times.map fun n => if n < 1 then 1 else if 99 < n then 99 else n
      else c.times }

/-- The program with the counts of its repetitions within their bounds. -/
def Program.bounded (p : Program) : Program := { p with controls := p.controls.map Control.bounded }

/-! ## Single records -/

theorem Steps.leaf?_empty (kind : StepKind) (leaf : ReferenceLeaf) :
    Steps.empty.leaf? kind leaf = none := by
  cases kind <;> rfl

/-- A leaf of the steps that a socket keeps is a leaf of the steps. -/
theorem Steps.leaf?_of_kept {s : Steps} {owner : BlockKind} {socket : SocketName}
    {kind : StepKind} {leaf : ReferenceLeaf} {value : LeafValue}
    (h : (s.kept owner socket).leaf? kind leaf = some value) : s.leaf? kind leaf = some value := by
  unfold kept at h
  split at h
  · exact h
  · rw [leaf?_empty] at h
    cases h

namespace Event

variable {e : Event}

theorem type_of_normal {type : EventType} (h : e.normal.type = some type) :
    e.type = some type := by
  obtain ⟨given, target⟩ := e
  cases given with
  | none => cases h
  | some given => cases given <;> first | exact h | cases h

/-- A searched object that is saved was searched before. -/
theorem findObject_of_normal {r : Reference} (h : e.normal.findObject = some r) :
    e.findObject = some r := by
  obtain ⟨given, target⟩ := e
  cases given with
  | none => cases h
  | some given =>
      cases given with
      | findObject =>
          simp only [normal] at h
          split at h
          · cases h
          · exact h
      | _ => cases h

end Event

namespace Control

variable {c : Control} {kind : BlockKind} {type : ControlType}

/-- What guards a saved control guarded it before, less what its block does not hold. -/
theorem event_of_normalAs {saved : Event} (h : (c.normalAs kind type).event = some saved) :
    saved = .blank ∨ ∃ e, c.event = some e ∧ saved = e.normal := by
  simp only [normalAs] at h
  split at h
  · obtain rfl := Option.some.inj h
    cases c.event with
    | none => exact .inl rfl
    | some e => exact .inr ⟨e, rfl, rfl⟩
  · cases h

theorem otherwise_of_normalAs {saved : Steps} (h : (c.normalAs kind type).otherwise = some saved) :
    saved = (c.otherwise.getD .empty).kept kind .otherwise := by
  simp only [normalAs] at h
  split at h
  · exact (Option.some.inj h).symm
  · cases h

/-- Every leaf of a control that is read back from its block is a leaf of the control that was
loaded, once its count is within the bounds. -/
theorem leaf?_of_normalAs (htype : c.type = some type)
    (hkind : Graph.controlType? kind = some type) {leaf : ControlLeaf} {value : LeafValue}
    (h : (c.normalAs kind type).leaf? leaf = some value) : c.bounded.leaf? leaf = some value := by
  cases leaf with
  | type => exact (congrArg (Option.map LeafValue.controlType) htype).trans h
  | times =>
      obtain ⟨n, hn, rfl⟩ := Option.map_eq_some_iff.mp h
      simp only [normalAs] at hn
      split at hn
      next hrepeated =>
        obtain rfl := beq_iff_eq.mp hrepeated
        obtain rfl := Option.some.inj hkind
        have hbounded : c.bounded.times = c.times.map clampCount := if_pos htype
        rw [leaf?, hbounded, hn, Option.map_some]
      next => cases hn
  | eventType =>
      obtain ⟨found, hfound, rfl⟩ := Option.map_eq_some_iff.mp h
      obtain ⟨saved, hsaved, hfound⟩ := Option.bind_eq_some_iff.mp hfound
      obtain rfl | ⟨e, he, rfl⟩ := event_of_normalAs hsaved
      · cases hfound
      · simp [leaf?, bounded, he, Event.type_of_normal hfound]
  | target leaf =>
      obtain ⟨r, hr, hleaf⟩ := Option.bind_eq_some_iff.mp h
      obtain ⟨saved, hsaved, hr⟩ := Option.bind_eq_some_iff.mp hr
      obtain rfl | ⟨e, he, rfl⟩ := event_of_normalAs hsaved
      · cases hr
      · simp [leaf?, bounded, he, Event.findObject_of_normal hr, hleaf]
  | step kind leaf => exact Steps.leaf?_of_kept h
  | otherwise kind leaf =>
      obtain ⟨saved, hsaved, hleaf⟩ := Option.bind_eq_some_iff.mp h
      rw [otherwise_of_normalAs hsaved] at hleaf
      rw [leaf?, ← Steps.leaf?_getD]
      exact Steps.leaf?_of_kept hleaf

theorem exists_kind_of_known (h : c.hasKnownType = true) : ∃ kind, c.kind? = some kind := by
  rw [← Option.isSome_iff_exists, isSome_kind?]
  unfold hasKnownType at h
  cases htype : c.type with
  | none => rw [htype] at h; cases h
  | some type => exact ⟨type, rfl, by rwa [htype] at h⟩

/-- Every leaf of a saved control is a leaf of the control, once its count is within the bounds. -/
theorem leaf?_of_normal? {saved : Control} (hsaved : c.normal? = some saved) {leaf : ControlLeaf}
    {value : LeafValue} (h : saved.leaf? leaf = some value) :
    c.bounded.leaf? leaf = some value := by
  obtain ⟨kind, hkind, hsaved⟩ := Option.bind_eq_some_iff.mp hsaved
  obtain ⟨type, htype, rfl⟩ := Option.map_eq_some_iff.mp hsaved
  exact leaf?_of_normalAs ((type_of_kind? hkind).trans htype) htype h

/-- A control of known type is saved. -/
theorem normal?_isSome_of_known (h : c.hasKnownType = true) : c.normal?.isSome := by
  obtain ⟨kind, hkind⟩ := exists_kind_of_known h
  obtain ⟨type, htype, -⟩ := Option.bind_eq_some_iff.mp hkind
  have hself : Graph.controlType? kind = some type := (type_of_kind? hkind).symm.trans htype
  simp [normal?, hkind, hself]

end Control

/-! ## Programs -/

namespace Program

variable {p : Program} (hknown : ∀ c ∈ p.controls, c.hasKnownType = true)

include hknown

/-- No control leaves steps over that could be taken for steps of the top level. -/
theorem steps_normal_of_known : p.normal.steps = p.steps ∨ p.normal.steps = .empty := by
  have hloose : p.controls.flatMap Control.loose = [] := by
    refine List.flatMap_eq_nil_iff.mpr fun c hc => ?_
    obtain ⟨kind, hkind⟩ := Control.exists_kind_of_known (hknown c hc)
    exact Control.loose_of_kind hkind
  have hsteps : p.normal.steps = .firsts ([p.steps].filter (·.pick.isSome)) := by
    rw [normal, hloose]
  rw [hsteps]
  cases hpick : p.steps.pick.isSome with
  | true =>
      left
      rw [List.filter_singleton, hpick, cond_true]
      simp [Steps.firsts]
  | false =>
      right
      rw [List.filter_singleton, hpick]
      rfl

/-- The controls are saved in their places, or none of them is. -/
theorem controls_normal_of_known : p.normal.controls = [] ∨
    ∀ index : Nat, p.normal.controls[index]? = p.controls[index]?.bind Control.normal? := by
  unfold normal
  dsimp only
  split
  · exact .inl rfl
  · right
    exact getElem?_filterMap_of_isSome fun c hc => Control.normal?_isSome_of_known (hknown c hc)

/-- Every leaf of a saved program is a leaf of the program, under the same path. -/
theorem leaf?_of_normal {path : LeafPath} {value : LeafValue}
    (h : p.normal.leaf? path = some value) : p.bounded.leaf? path = some value := by
  cases path with
  | step kind leaf =>
      have hleaf : p.normal.steps.leaf? kind leaf = some value := h
      obtain hsteps | hsteps := steps_normal_of_known hknown
      · rwa [hsteps] at hleaf
      · rw [hsteps, Steps.leaf?_empty] at hleaf
        cases hleaf
  | control index leaf =>
      obtain ⟨saved, hsaved, hleaf⟩ := Option.bind_eq_some_iff.mp h
      obtain hnone | hplaces := controls_normal_of_known hknown
      · rw [hnone] at hsaved
        cases hsaved
      · rw [hplaces] at hsaved
        obtain ⟨c, hc, hnormal⟩ := Option.bind_eq_some_iff.mp hsaved
        have hbounded : p.bounded.controls[index]? = some c.bounded := by
          rw [bounded, List.getElem?_map, hc, Option.map_some]
        rw [leaf?, hbounded, Option.bind_some]
        exact Control.leaf?_of_normal? hnormal hleaf

end Program

/-- When all controls are of known type, every leaf that is set after opening and saving was set
before, under the same path and to the same value; only a count outside the bounds of repetitions
has become the nearer bound. -/
theorem saving_invents_no_leaves (layout : Layout) (p : Program)
    (hknown : ∀ c ∈ p.controls, c.hasKnownType = true) :
    ∀ path value, (Graph.ofProgram .standard layout p).toProgram.leaf? path = some value →
      p.bounded.leaf? path = some value := by
  intro path value h
  rw [toProgram_ofProgram_eq_normal] at h
  exact Program.leaf?_of_normal hknown h

/-- A place that cannot begin the program, a repetition with too many rounds, and a control whose
branches are in part refused. -/
def overfull : Program :=
  ⟨⟨none, none, some ⟨some "shelf", some 3⟩⟩,
    [⟨some .repeated, some 500, none, none, ⟨none, none, some ⟨none, some 4⟩⟩⟩,
      ⟨some .whenOtherwise, some 7, some ⟨some .sensor, some ⟨none, some 5⟩⟩,
        some ⟨none, some ⟨some "turn", none⟩, none⟩, ⟨some ⟨some "box", some 1⟩, none, none⟩⟩]⟩

/-- The count of the repetition is saved as its upper bound. -/
theorem leaf_of_overfull_repetition :
    let saved := (Graph.ofProgram .standard .standard overfull).toProgram
    (∀ c ∈ overfull.controls, c.hasKnownType = true) ∧
      saved.leaf? (.control 0 .times) = some (.int 99) ∧
      overfull.leaf? (.control 0 .times) = some (.int 500) ∧
      overfull.bounded.leaf? (.control 0 .times) = some (.int 99) := by
  intro saved
  have hknown : ∀ c ∈ overfull.controls, c.hasKnownType = true := by decide
  have hsaved : saved.leaf? (.control 0 .times) = some (.int 99) := by
    have hnormal : saved = overfull.normal := toProgram_ofProgram_eq_normal .standard overfull
    rw [hnormal]
    decide
  exact ⟨hknown, hsaved, by decide,
    saving_invents_no_leaves .standard overfull hknown (.control 0 .times) (.int 99) hsaved⟩

end TaskDiagram
