import TaskDiagram.Program.Draft
import TaskDiagram.Proofs.Program.References

/-! # Finished drafts

A finished draft is put into shape in two moves: what is blank is left out everywhere, and then the
steps of the top level and of the first control are gathered in one place. Each move done once more
changes nothing, and neither touches a leaf but for the steps that are moved.
-/

namespace TaskDiagram

/-! ## Leaving out blank records -/

namespace Reference

theorem compact_eq_self_iff {o : Option Reference} :
    compact o = o ↔ ∀ r ∈ o, r.isBlank = false := by
  cases o with
  | none => simp [compact]
  | some r => cases hblank : r.isBlank <;> simp [compact, Option.filter, hblank]

/-- What is left of a reference has something set in it. -/
theorem isBlank_of_mem_compact {o : Option Reference} {r : Reference} (h : r ∈ compact o) :
    r.isBlank = false := by
  simpa using (Option.filter_eq_some_iff.mp h).2

theorem compact_compact (o : Option Reference) : compact (compact o) = compact o :=
  compact_eq_self_iff.mpr fun _ => isBlank_of_mem_compact

/-- Taking one of two references that are not blank makes none blank. -/
theorem compact_or {a b : Option Reference} (ha : compact a = a) (hb : compact b = b) :
    compact (a.or b) = a.or b := by
  cases a with
  | none => exact hb
  | some r => exact ha

theorem leaf?_compact (o : Option Reference) (leaf : ReferenceLeaf) :
    (compact o).bind (·.leaf? leaf) = o.bind (·.leaf? leaf) := by
  cases o with
  | none => rfl
  | some r =>
      cases hblank : r.isBlank with
      | true => simp [compact, Option.filter, hblank, isBlank_iff_leaf?.mp hblank leaf]
      | false => simp [compact, Option.filter, hblank]

end Reference

namespace Steps

/-- Each step is left out by itself. -/
theorem get_compact (s : Steps) (kind : StepKind) :
    s.compact.get kind = Reference.compact (s.get kind) := by
  cases kind <;> rfl

/-- Each step is taken from the first steps that have it. -/
theorem get_or (s t : Steps) (kind : StepKind) : (s.or t).get kind = (s.get kind).or (t.get kind) := by
  cases kind <;> rfl

/-- No leaf of steps is left out with the blank ones. -/
theorem leaf?_compact (s : Steps) (kind : StepKind) (leaf : ReferenceLeaf) :
    s.compact.leaf? kind leaf = s.leaf? kind leaf := by
  rw [leaf?, get_compact, Reference.leaf?_compact, leaf?]

theorem compact_compact (s : Steps) : s.compact.compact = s.compact := by
  ext kind : 1
  rw [get_compact, get_compact, Reference.compact_compact]

theorem compact_or {s t : Steps} (hs : s.compact = s) (ht : t.compact = t) :
    (s.or t).compact = s.or t := by
  ext kind : 1
  rw [get_compact, get_or]
  refine Reference.compact_or ?_ ?_
  · rw [← get_compact, hs]
  · rw [← get_compact, ht]

theorem or_empty (s : Steps) : s.or .empty = s := by
  ext kind : 1
  rw [get_or]
  cases kind <;> exact Option.or_none

theorem get_of_isEmpty {s : Steps} (h : s.isEmpty = true) (kind : StepKind) : s.get kind = none := by
  simp only [isEmpty, Bool.and_eq_true, Option.isNone_iff_eq_none] at h
  cases kind
  · exact h.1.1
  · exact h.1.2
  · exact h.2

end Steps

namespace Event

theorem type_compact (e : Event) : e.compact.bind (·.type) = e.type := by
  obtain ⟨type, target⟩ := e
  cases type with
  | some type => rfl
  | none => cases h : Reference.compact target <;> simp [compact, h]

/-- An event is left out only when its object is. -/
theorem findObject_compact (e : Event) :
    e.compact.bind (·.findObject) = Reference.compact e.findObject := by
  obtain ⟨type, target⟩ := e
  cases type with
  | some type => rfl
  | none => cases h : Reference.compact target <;> simp [compact, h]

theorem compact_compact (e : Event) : e.compact.bind compact = e.compact := by
  obtain ⟨type, target⟩ := e
  have htarget := Reference.compact_compact target
  cases type <;> cases h : Reference.compact target <;> simp_all [compact]

end Event

namespace Control

variable (c : Control)

theorem findObject_compact : c.compact.event.bind (·.findObject) =
    Reference.compact (c.event.bind (·.findObject)) := by
  cases hevent : c.event with
  | none => simp [compact, hevent, Reference.compact]
  | some e => simpa [compact, hevent] using e.findObject_compact

theorem otherwise_compact (kind : StepKind) : c.compact.otherwise.bind (·.get kind) =
    Reference.compact (c.otherwise.bind (·.get kind)) := by
  cases hotherwise : c.otherwise with
  | none => simp [compact, hotherwise, Reference.compact]
  | some s =>
      simp only [compact, hotherwise, Option.map_some, Option.bind_some, ← Steps.get_compact]
      cases hempty : s.compact.isEmpty with
      | true => simp [Option.filter, hempty, Steps.get_of_isEmpty hempty]
      | false => simp [Option.filter, hempty]

/-- No leaf of a control is left out with what is blank in it. -/
theorem leaf?_compact (leaf : ControlLeaf) : c.compact.leaf? leaf = c.leaf? leaf := by
  cases leaf with
  | type => rfl
  | times => rfl
  | eventType =>
      refine congrArg (Option.map LeafValue.eventType) ?_
      cases hevent : c.event with
      | none => simp [compact, hevent]
      | some e => simpa [compact, hevent] using e.type_compact
  | target leaf => rw [leaf?, findObject_compact, Reference.leaf?_compact, leaf?]
  | step kind leaf => exact c.steps.leaf?_compact kind leaf
  | otherwise kind leaf =>
      have hread : ∀ o : Option Steps, o.bind (·.leaf? kind leaf) =
          (o.bind (·.get kind)).bind (·.leaf? leaf) := fun o => (Option.bind_assoc ..).symm
      rw [leaf?, leaf?, hread, hread, otherwise_compact, Reference.leaf?_compact]

theorem compact_compact : c.compact.compact = c.compact := by
  have hevent : c.compact.event.bind Event.compact = c.compact.event := by
    cases hevent : c.event with
    | none => simp [compact, hevent]
    | some e => simpa [compact, hevent] using e.compact_compact
  have hotherwise : (c.compact.otherwise.map Steps.compact).filter (!·.isEmpty) =
      c.compact.otherwise := by
    cases hotherwise : c.otherwise with
    | none => simp [compact, hotherwise]
    | some s =>
        cases hempty : s.compact.isEmpty <;>
          simp [compact, hotherwise, Option.filter, hempty, Steps.compact_compact]
  rw [compact, hevent, hotherwise]
  exact congrArg (fun steps => { c.compact with steps := steps }) c.steps.compact_compact

end Control

/-- Whether a leaf belongs to a step of the first control. -/
def LeafPath.isOfFirstSteps : LeafPath → Bool
  | .control 0 (.step _ _) => true
  | _ => false

namespace Program

variable (p : Program)

/-- The reference in a place, if anything is set in it. -/
def filled? (place : ReferencePlace) : Option Reference :=
  (p.reference? place).filter (!·.isBlank)

/-- The program without blank records. -/
def compact : Program := ⟨p.steps.compact, p.controls.map Control.compact⟩

theorem getElem?_compact (index : Nat) :
    p.compact.controls[index]? = p.controls[index]?.map Control.compact :=
  List.getElem?_map

/-- What is left in a place is the reference there, if anything is set in it. -/
theorem reference?_compact (place : ReferencePlace) : p.compact.reference? place = p.filled? place := by
  cases place with
  | step kind => exact p.steps.get_compact kind
  | controlStep index kind =>
      rw [filled?, reference?, reference?, getElem?_compact]
      cases p.controls[index]? with
      | none => rfl
      | some c => exact c.steps.get_compact kind
  | otherwiseStep index kind =>
      rw [filled?, reference?, reference?, getElem?_compact]
      cases p.controls[index]? with
      | none => rfl
      | some c => exact c.otherwise_compact kind
  | target index =>
      rw [filled?, reference?, reference?, getElem?_compact]
      cases p.controls[index]? with
      | none => rfl
      | some c => exact c.findObject_compact

/-- No leaf of a program is left out with what is blank in it. -/
theorem leaf?_compact (path : LeafPath) : p.compact.leaf? path = p.leaf? path := by
  cases path with
  | step kind leaf => exact p.steps.leaf?_compact kind leaf
  | control index leaf =>
      rw [leaf?, leaf?, getElem?_compact]
      cases p.controls[index]? with
      | none => rfl
      | some c => exact c.leaf?_compact leaf

/-- Leaving out what is blank once is leaving it out for good. -/
theorem compact_compact : p.compact.compact = p.compact := by
  simp only [compact, Steps.compact_compact, List.map_map, Function.comp_def,
    Control.compact_compact]

/-- No reference of a program without blank records is blank. -/
theorem isBlank_of_compact {q : Program} (h : q.compact = q) {place : ReferencePlace}
    {r : Reference} (hr : r ∈ q.reference? place) : r.isBlank = false := by
  rw [← h, reference?_compact] at hr
  simpa using (Option.filter_eq_some_iff.mp hr).2

/-! ## Gathering the steps -/

/-- Whether the first control is of a known type. -/
def IsControlled : Prop :=
  ∃ c type, p.controls.head? = some c ∧ c.type = some type ∧ type.isKnown = true

/-- The program with its steps in one place: in the first control if that is of a known type, else at
the top level. -/
def gathered : Program :=
  match p.controls with
  | [] => p
  | first :: rest =>
      if first.hasKnownType then ⟨.empty, { first with steps := first.steps.or p.steps } :: rest⟩
      else ⟨p.steps.or first.steps, []⟩

/-- Putting a draft into shape is leaving out what is blank and gathering the steps. -/
theorem normalize_eq : p.normalize = p.compact.gathered := by
  unfold normalize gathered compact
  cases p.controls <;> rfl

variable {p}

theorem isControlled_cons {first : Control} {rest : List Control} (h : p.controls = first :: rest) :
    p.IsControlled ↔ first.hasKnownType = true := by
  rw [IsControlled, h, Control.hasKnownType]
  cases htype : first.type <;> simp [htype]

/-- With a control of known type all steps are in that control. -/
theorem gathered_of_isControlled {first : Control} {rest : List Control}
    (h : p.controls = first :: rest) (hknown : p.IsControlled) :
    p.gathered = ⟨.empty, { first with steps := first.steps.or p.steps } :: rest⟩ := by
  rw [gathered, h]
  exact if_pos ((isControlled_cons h).mp hknown)

/-- Without one all steps are at the top level, and no control is left. -/
theorem gathered_of_not_isControlled {first : Control} {rest : List Control}
    (h : p.controls = first :: rest) (hunknown : ¬ p.IsControlled) :
    p.gathered = ⟨p.steps.or first.steps, []⟩ := by
  rw [gathered, h]
  exact if_neg (mt (isControlled_cons h).mpr hunknown)

/-- Leaving out what is blank does not touch the types of controls. -/
theorem isControlled_compact : p.compact.IsControlled ↔ p.IsControlled := by
  rw [IsControlled, IsControlled, compact]
  cases p.controls with
  | nil => simp
  | cons first rest => simp [Control.compact]

/-- Gathering makes nothing blank. -/
theorem compact_gathered (h : p.compact = p) : p.gathered.compact = p.gathered := by
  obtain ⟨steps, controls⟩ := p
  obtain ⟨hsteps, hcontrols⟩ := mk.inj h
  cases controls with
  | nil => exact h
  | cons first rest =>
      obtain ⟨hfirst, hrest⟩ := List.cons.inj hcontrols
      have hown : first.steps.compact = first.steps := congrArg Control.steps hfirst
      by_cases hknown : IsControlled ⟨steps, first :: rest⟩
      · rw [gathered_of_isControlled rfl hknown]
        have hhead : Control.compact { first with steps := first.steps.or steps } =
            { first with steps := first.steps.or steps } := by
          have hgathered := Steps.compact_or hown hsteps
          cases first
          simp_all [Control.compact]
        exact congrArg (Program.mk .empty) (by rw [List.map_cons, hhead, hrest])
      · rw [gathered_of_not_isControlled rfl hknown]
        exact congrArg (Program.mk · []) (Steps.compact_or hsteps hown)

/-- Steps that were gathered stay where they are. -/
theorem gathered_gathered : p.gathered.gathered = p.gathered := by
  obtain ⟨steps, controls⟩ := p
  cases controls with
  | nil => rfl
  | cons first rest =>
      by_cases hknown : IsControlled ⟨steps, first :: rest⟩
      · rw [gathered_of_isControlled rfl hknown]
        -- The type of the first control stays what it was.
        have htype : first.hasKnownType = true := (isControlled_cons rfl).mp hknown
        exact (if_pos htype).trans (by rw [Steps.or_empty])
      · rw [gathered_of_not_isControlled rfl hknown]
        rfl

/-- With a control of known type the steps go to the control, its own ones first. -/
theorem reference?_gathered_of_isControlled (hknown : p.IsControlled) (kind : StepKind) :
    p.gathered.reference? (.step kind) = none ∧ p.gathered.reference? (.controlStep 0 kind) =
      (p.reference? (.controlStep 0 kind)).or (p.reference? (.step kind)) := by
  obtain ⟨steps, controls⟩ := p
  cases controls with
  | nil => obtain ⟨c, -, hc, -⟩ := hknown; cases hc
  | cons first rest =>
      rw [gathered_of_isControlled rfl hknown]
      exact ⟨by cases kind <;> rfl, Steps.get_or first.steps steps kind⟩

/-- Without one they go to the top level, those that are there first. -/
theorem reference?_gathered_of_not_isControlled (hunknown : ¬ p.IsControlled) (kind : StepKind) :
    p.gathered.controls = [] ∧ p.gathered.reference? (.step kind) =
      (p.reference? (.step kind)).or (p.reference? (.controlStep 0 kind)) := by
  obtain ⟨steps, controls⟩ := p
  cases controls with
  | nil => exact ⟨rfl, Option.or_none.symm⟩
  | cons first rest =>
      rw [gathered_of_not_isControlled rfl hunknown]
      exact ⟨rfl, Steps.get_or steps first.steps kind⟩

/-- The controls stay where they are, and so does all that is set in them but for the steps of the
first. -/
theorem leaf?_gathered (hknown : p.IsControlled) {index : Nat} {leaf : ControlLeaf}
    (hleaf : (LeafPath.control index leaf).isOfFirstSteps = false) :
    p.gathered.leaf? (.control index leaf) = p.leaf? (.control index leaf) := by
  obtain ⟨steps, controls⟩ := p
  cases controls with
  | nil => obtain ⟨c, -, hc, -⟩ := hknown; cases hc
  | cons first rest =>
      rw [gathered_of_isControlled rfl hknown]
      cases index with
      | zero => cases leaf <;> first | rfl | cases hleaf
      | succ index => rfl

theorem length_gathered (hknown : p.IsControlled) :
    p.gathered.controls.length = p.controls.length := by
  cases hcontrols : p.controls with
  | nil => simp [gathered, hcontrols]
  | cons first rest => simp [gathered_of_isControlled hcontrols hknown]

/-- A finished draft is in shape for good, and nothing in it is blank. It has each step that is set at
the top level or in the first control of the draft, in one of these places only: in the control when
that is of a known type, its own step before the one at the top, and otherwise at the top level, with
no controls left. With a control of known type everything else that is set in the controls stays
where it is. -/
theorem finished_drafts_are_in_shape (p : Program) :
    let n := p.normalize
    n.normalize = n ∧
      (∀ place, ∀ r ∈ n.reference? place, r.isBlank = false) ∧
      (∀ kind, (n.reference? (.step kind)).isSome ∨ (n.reference? (.controlStep 0 kind)).isSome ↔
        (p.filled? (.step kind)).isSome ∨ (p.filled? (.controlStep 0 kind)).isSome) ∧
      (∀ kind, n.reference? (.step kind) = none ∨ n.reference? (.controlStep 0 kind) = none) ∧
      (p.IsControlled →
        (∀ kind, n.reference? (.step kind) = none ∧ n.reference? (.controlStep 0 kind) =
          (p.filled? (.controlStep 0 kind)).or (p.filled? (.step kind))) ∧
        n.controls.length = p.controls.length ∧
        ∀ index leaf, (LeafPath.control index leaf).isOfFirstSteps = false →
          n.leaf? (.control index leaf) = p.leaf? (.control index leaf)) ∧
      (¬ p.IsControlled → n.controls = [] ∧ ∀ kind, n.reference? (.step kind) =
        (p.filled? (.step kind)).or (p.filled? (.controlStep 0 kind))) := by
  intro n
  have hn : n = p.compact.gathered := normalize_eq p
  have hcompact : n.compact = n := by rw [hn, compact_gathered p.compact_compact]
  have hcontrolled : p.IsControlled → ∀ kind, n.reference? (.step kind) = none ∧
      n.reference? (.controlStep 0 kind) =
        (p.filled? (.controlStep 0 kind)).or (p.filled? (.step kind)) := by
    intro hknown kind
    rw [hn, ← reference?_compact, ← reference?_compact]
    exact reference?_gathered_of_isControlled (isControlled_compact.mpr hknown) kind
  have hfree : ¬ p.IsControlled → ∀ kind, n.controls = [] ∧ n.reference? (.step kind) =
      (p.filled? (.step kind)).or (p.filled? (.controlStep 0 kind)) := by
    intro hunknown kind
    rw [hn, ← reference?_compact, ← reference?_compact]
    exact reference?_gathered_of_not_isControlled (mt isControlled_compact.mp hunknown) kind
  -- Where there are no controls there is no first one with steps either.
  have hnone : n.controls = [] → ∀ kind, n.reference? (.controlStep 0 kind) = none := by
    intro hempty kind
    rw [reference?, hempty]
    rfl
  refine ⟨?_, fun place r hr => isBlank_of_compact hcompact hr, fun kind => ?_, fun kind => ?_,
    fun hknown => ⟨hcontrolled hknown, ?_, fun index leaf hleaf => ?_⟩,
    fun hunknown => ⟨(hfree hunknown .pick).1, fun kind => (hfree hunknown kind).2⟩⟩
  · rw [normalize_eq, hcompact, hn, gathered_gathered]
  · by_cases hknown : p.IsControlled
    · obtain ⟨htop, hown⟩ := hcontrolled hknown kind
      rw [htop, hown, Option.isSome_or, Bool.or_eq_true, or_comm (a := (p.filled? _).isSome = true)]
      simp
    · obtain ⟨hempty, htop⟩ := hfree hknown kind
      rw [htop, hnone hempty, Option.isSome_or, Bool.or_eq_true]
      simp
  · by_cases hknown : p.IsControlled
    · exact .inl (hcontrolled hknown kind).1
    · exact .inr (hnone (hfree hknown kind).1 kind)
  · rw [hn, length_gathered (isControlled_compact.mpr hknown)]
    exact List.length_map ..
  · rw [hn, leaf?_gathered (isControlled_compact.mpr hknown) hleaf, leaf?_compact]

end Program

end TaskDiagram
