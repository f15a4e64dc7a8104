import TaskDiagram.Proofs.Program.Normal

/-! # Opening and saving

A program survives opening and saving exactly when it is well-shaped, and what opening
and saving makes of any program is well-shaped. So a second round changes nothing more
and finds nothing to complain about.
-/

namespace TaskDiagram

/-! ## Well-shaped programs -/

/-- A processing or a place comes with a pick. -/
def Steps.BeginWithPick (s : Steps) : Prop :=
  s.processing.isSome ∨ s.place.isSome → s.pick.isSome

/-- A processing comes with a pick. -/
def Steps.ProcessPicked (s : Steps) : Prop := s.processing.isSome → s.pick.isSome

/-- Nothing is set, or a signal without an object, or the search for an object that is not
blank. -/
def Event.WellShaped (e : Event) : Prop :=
  e = .blank ∨ ((e.type = some .sensor ∨ e.type = some .human) ∧ e.findObject = none) ∨
    (e.type = some .findObject ∧ ∀ r, e.findObject = some r → r.isBlank = false)

/-- A control that has exactly what the logic block of its type can hold. -/
structure Control.WellShaped (c : Control) : Prop where
  known : c.type = some .loop ∨ c.type = some .repeated ∨ c.type = some .when ∨
    c.type = some .whenOtherwise
  times : ∀ n, c.times = some n → c.type = some .repeated ∧ 1 ≤ n ∧ n ≤ 99
  unguarded : c.type = some .loop ∨ c.type = some .repeated → c.event = none
  guarded : c.type = some .when ∨ c.type = some .whenOtherwise →
    ∃ e, c.event = some e ∧ e.WellShaped
  otherwise : c.otherwise.isSome ↔ c.type = some .whenOtherwise
  steps : c.type ≠ some .whenOtherwise → c.steps.BeginWithPick
  branches : c.type = some .whenOtherwise →
    c.steps.ProcessPicked ∧ ∀ s, c.otherwise = some s → s.ProcessPicked

/-- A program that a diagram can hold as it is. -/
structure Program.WellShaped (p : Program) : Prop where
  steps : p.steps.BeginWithPick
  controls : ∀ c ∈ p.controls, c.WellShaped

/-! ## Branches -/

/-- The body of a block other than a two-way condition takes steps that begin with a pick. -/
theorem fit_body_iff (s : Steps) {kind : BlockKind}
    (hkind : kind = .loop ∨ kind = .repeated ∨ kind = .when) :
    s.fit kind .body = true ↔ s.BeginWithPick := by
  obtain ⟨pick, processing, place⟩ := s
  rcases hkind with rfl | rfl | rfl <;> cases pick <;> cases processing <;> cases place <;>
    simp [Steps.BeginWithPick] <;> rfl

/-- The branches of a two-way condition take any steps but a processing without a pick. -/
theorem fit_whenOtherwise_iff (s : Steps) {socket : SocketName}
    (hsocket : socket = .body ∨ socket = .otherwise) :
    s.fit .whenOtherwise socket = true ↔ s.ProcessPicked := by
  obtain ⟨pick, processing, place⟩ := s
  rcases hsocket with rfl | rfl <;> cases pick <;> cases processing <;> cases place <;>
    simp [Steps.ProcessPicked] <;> rfl

theorem kept_of_fit {s : Steps} {kind : BlockKind} {socket : SocketName}
    (h : s.fit kind socket = true) : s.kept kind socket = s := if_pos h

theorem fit_kept (s : Steps) (kind : BlockKind) (socket : SocketName) :
    (s.kept kind socket).fit kind socket = true := by
  unfold Steps.kept
  split
  next h => exact h
  next => rfl

/-! ## Events and counts -/

/-- What the block of an event holds is well-shaped. -/
theorem wellShaped_normalEvent (e : Event) : e.normal.WellShaped := by
  obtain ⟨type, findObject⟩ := e
  unfold Event.normal
  cases type with
  | none => exact .inl rfl
  | some type =>
      cases type with
      | sensor => exact .inr (.inl ⟨.inl rfl, rfl⟩)
      | human => exact .inr (.inl ⟨.inr rfl, rfl⟩)
      | other => exact .inl rfl
      | findObject =>
          refine .inr (.inr ⟨rfl, fun r hr => ?_⟩)
          dsimp only at hr
          split at hr
          · cases hr
          next hblank =>
            subst hr
            exact Bool.eq_false_iff.mpr hblank

/-- A well-shaped event is held by its block as it is. -/
theorem Event.WellShaped.normal_eq {e : Event} (h : e.WellShaped) : e.normal = e := by
  obtain ⟨type, findObject⟩ := e
  rcases h with h | ⟨htype | htype, hfind⟩ | ⟨htype, hfind⟩
  · rw [h]
    rfl
  · obtain rfl : type = _ := htype
    obtain rfl : findObject = _ := hfind
    rfl
  · obtain rfl : type = _ := htype
    obtain rfl : findObject = _ := hfind
    rfl
  · obtain rfl : type = _ := htype
    cases findObject with
    | none => rfl
    | some r => simp [Event.normal, hfind r rfl]

theorem Event.WellShaped.findings_eq {e : Event} (h : e.WellShaped) : e.findings = [] := by
  obtain ⟨type, findObject⟩ := e
  rcases h with h | ⟨htype | htype, -⟩ | ⟨htype, -⟩
  · rw [h]
    rfl
  all_goals
    obtain rfl : type = _ := htype
    rfl

/-! ## Controls -/

/-- What is read back from a logic block is well-shaped. -/
theorem wellShaped_normalAs (c : Control) {kind : BlockKind} {type : ControlType}
    (htype : Graph.controlType? kind = some type) : (c.normalAs kind type).WellShaped := by
  have hevent : ((c.event.map Event.normal).getD .blank).WellShaped := by
    cases c.event with
    | none => exact .inl rfl
    | some e => exact wellShaped_normalEvent e
  have htimes : ∀ n, c.times.map clampCount = some n → 1 ≤ n ∧ n ≤ 99 := by
    intro n hn
    obtain ⟨m, -, rfl⟩ := Option.map_eq_some_iff.mp hn
    exact clampCount_within m
  have hbody := fit_kept c.steps kind .body
  have hotherwise := fit_kept (c.otherwise.getD .empty) kind .otherwise
  cases kind with
  | loop =>
      cases htype
      exact ⟨.inl rfl, nofun, fun _ => rfl, nofun, ⟨nofun, nofun⟩,
        fun _ => (fit_body_iff _ (.inl rfl)).mp hbody, nofun⟩
  | repeated =>
      cases htype
      exact ⟨.inr (.inl rfl), fun n hn => ⟨rfl, htimes n hn⟩, fun _ => rfl, nofun, ⟨nofun, nofun⟩,
        fun _ => (fit_body_iff _ (.inr (.inl rfl))).mp hbody, nofun⟩
  | when =>
      cases htype
      exact ⟨.inr (.inr (.inl rfl)), nofun, nofun, fun _ => ⟨_, rfl, hevent⟩, ⟨nofun, nofun⟩,
        fun _ => (fit_body_iff _ (.inr (.inr rfl))).mp hbody, nofun⟩
  | whenOtherwise =>
      cases htype
      refine ⟨.inr (.inr (.inr rfl)), nofun, nofun, fun _ => ⟨_, rfl, hevent⟩,
        ⟨fun _ => rfl, fun _ => rfl⟩, fun hne => absurd rfl hne, fun _ => ⟨?_, ?_⟩⟩
      · exact (fit_whenOtherwise_iff _ (.inl rfl)).mp hbody
      · rintro s ⟨⟩
        exact (fit_whenOtherwise_iff _ (.inr rfl)).mp hotherwise
  | _ => cases htype

theorem wellShaped_of_normal? {c c' : Control} (h : c.normal? = some c') : c'.WellShaped := by
  obtain ⟨kind, -, hkind⟩ := Option.bind_eq_some_iff.mp h
  obtain ⟨type, htype, rfl⟩ := Option.map_eq_some_iff.mp hkind
  exact wellShaped_normalAs c htype

/-- The kind of the logic block tells the type of the control. -/
theorem type_of_kind? {c : Control} {kind : BlockKind} (h : c.kind? = some kind) :
    c.type = Graph.controlType? kind := by
  obtain ⟨type, htype, hkind⟩ := Option.bind_eq_some_iff.mp h
  rw [htype]
  cases type <;> cases hkind <;> rfl

namespace Control.WellShaped

variable {c : Control}

theorem times_eq_none (h : c.WellShaped) (htype : c.type ≠ some .repeated) : c.times = none := by
  cases htimes : c.times with
  | none => rfl
  | some n => exact absurd (h.times n htimes).1 htype

theorem otherwise_eq_none (h : c.WellShaped) (htype : c.type ≠ some .whenOtherwise) :
    c.otherwise = none := by
  cases hotherwise : c.otherwise with
  | none => rfl
  | some s => exact absurd (h.otherwise.mp (by rw [hotherwise]; rfl)) htype

/-- The body is accepted by its socket. -/
theorem fit_body (h : c.WellShaped) {kind : BlockKind} (hkind : c.kind? = some kind) :
    c.steps.fit kind .body = true := by
  unfold Control.kind? at hkind
  rcases h.known with htype | htype | htype | htype <;> rw [htype] at hkind <;> cases hkind
  · exact (fit_body_iff _ (.inl rfl)).mpr (h.steps (by simp [htype]))
  · exact (fit_body_iff _ (.inr (.inl rfl))).mpr (h.steps (by simp [htype]))
  · exact (fit_body_iff _ (.inr (.inr rfl))).mpr (h.steps (by simp [htype]))
  · exact (fit_whenOtherwise_iff _ (.inl rfl)).mpr (h.branches htype).1

theorem fit_otherwise (h : c.WellShaped) (htype : c.type = some .whenOtherwise) :
    ∃ s, c.otherwise = some s ∧ s.fit .whenOtherwise .otherwise = true := by
  obtain ⟨s, hs⟩ := Option.isSome_iff_exists.mp (h.otherwise.mpr htype)
  exact ⟨s, hs, (fit_whenOtherwise_iff _ (.inr rfl)).mpr ((h.branches htype).2 s hs)⟩

theorem clamp_eq (h : c.WellShaped) : c.times.map clampCount = c.times := by
  cases htimes : c.times with
  | none => rfl
  | some n =>
      obtain ⟨-, hlow, hhigh⟩ := h.times n htimes
      rw [Option.map_some, clampCount_of_within hlow hhigh]

/-- A condition has an event that its block holds as it is. -/
theorem guard (h : c.WellShaped) (htype : c.type = some .when ∨ c.type = some .whenOtherwise) :
    ∃ e, c.event = some e ∧ e.normal = e ∧ e.findings = [] := by
  obtain ⟨e, he, hshape⟩ := h.guarded htype
  exact ⟨e, he, hshape.normal_eq, hshape.findings_eq⟩

/-- A well-shaped control is its own normal form. -/
theorem normal?_eq (h : c.WellShaped) : c.normal? = some c := by
  have hbody : ∀ kind, c.kind? = some kind → c.steps.kept kind .body = c.steps :=
    fun kind hkind => kept_of_fit (h.fit_body hkind)
  have hclamp := h.clamp_eq
  have htimes := h.times_eq_none
  have hotherwise := h.otherwise_eq_none
  have hguard := h.guard
  have hevent := h.unguarded
  have hsecond := h.fit_otherwise
  have hknown := h.known
  obtain ⟨type, times, event, otherwise, steps⟩ := c
  rcases hknown with htype | htype | htype | htype <;> obtain rfl : type = _ := htype
  · obtain rfl : times = none := htimes (by simp)
    obtain rfl : event = none := hevent (.inl rfl)
    obtain rfl : otherwise = none := hotherwise (by simp)
    have hbody : steps.kept .loop .body = steps := hbody .loop rfl
    simp [Control.normal?, Control.kind?, Build.logicKind?, Graph.controlType?, Control.normalAs,
      hbody]
  · obtain rfl : event = none := hevent (.inr rfl)
    obtain rfl : otherwise = none := hotherwise (by simp)
    have hbody : steps.kept .repeated .body = steps := hbody .repeated rfl
    have hclamp : times.map clampCount = times := hclamp
    simp [Control.normal?, Control.kind?, Build.logicKind?, Graph.controlType?, Control.normalAs,
      hbody, hclamp]
  · obtain rfl : times = none := htimes (by simp)
    obtain ⟨e, rfl, hnormal, -⟩ : ∃ e, event = some e ∧ _ := hguard (.inl rfl)
    obtain rfl : otherwise = none := hotherwise (by simp)
    have hbody : steps.kept .when .body = steps := hbody .when rfl
    simp [Control.normal?, Control.kind?, Build.logicKind?, Graph.controlType?, Control.normalAs,
      hbody, hnormal]
  · obtain rfl : times = none := htimes (by simp)
    obtain ⟨e, rfl, hnormal, -⟩ : ∃ e, event = some e ∧ _ := hguard (.inr rfl)
    obtain ⟨s, rfl, hfit⟩ : ∃ s, otherwise = some s ∧ _ := hsecond rfl
    have hbody : steps.kept .whenOtherwise .body = steps := hbody .whenOtherwise rfl
    simp [Control.normal?, Control.kind?, Build.logicKind?, Graph.controlType?, Control.normalAs,
      hbody, hnormal, kept_of_fit hfit]

/-- Nothing is recorded when a well-shaped control is loaded. -/
theorem findings_eq (h : c.WellShaped) : c.findings = [] := by
  obtain ⟨kind, hkind, -⟩ := Option.bind_eq_some_iff.mp h.normal?_eq
  have htype := type_of_kind? hkind
  have hcount : c.countFindings kind = [] := by
    unfold Control.countFindings
    split
    next n htimes =>
      obtain ⟨-, hlow, hhigh⟩ := h.times n htimes
      rw [if_neg (not_not.mpr (clampCount_of_within hlow hhigh))]
    next => rfl
  have hevent : ((c.guard? kind).map Event.findings).getD [] = [] := by
    unfold Control.guard?
    split
    next hguarded =>
      have htype : c.type = some .when ∨ c.type = some .whenOtherwise := by
        rw [htype]
        rcases hguarded with rfl | rfl
        · exact .inl rfl
        · exact .inr rfl
      obtain ⟨e, he, -, hnone⟩ := h.guard htype
      rw [he]
      exact hnone
    next => rfl
  have hbody : c.steps.refusal kind .body = [] := if_pos (h.fit_body hkind)
  have hsecond : (c.second kind).refusal kind .otherwise = [] := by
    unfold Control.second
    split
    next hkind =>
      obtain ⟨s, hs, hfit⟩ := h.fit_otherwise (htype ▸ hkind ▸ rfl)
      rw [hs, hkind]
      exact if_pos hfit
    next => rfl
  unfold Control.findings Control.complaints
  rw [hkind]
  dsimp only
  rw [hcount, hevent, hbody, hsecond]
  rfl

end Control.WellShaped

theorem filterMap_normal?_eq {cs : List Control} (h : ∀ c ∈ cs, c.WellShaped) :
    cs.filterMap Control.normal? = cs := by
  refine (List.filterMap_congr fun c hc => (h c hc).normal?_eq).trans ?_
  simp

/-! ## Programs -/

/-- The normal form of any program is well-shaped. -/
theorem wellShaped_normal (p : Program) : p.normal.WellShaped where
  steps := by
    have hpicks : ∀ s ∈ (p.steps :: p.controls.flatMap Control.loose).filter (·.pick.isSome),
        s.pick.isSome := fun s hs => by simpa using (List.mem_filter.mp hs).2
    unfold Program.normal Steps.firsts Steps.BeginWithPick
    dsimp only
    generalize (p.steps :: p.controls.flatMap Control.loose).filter (·.pick.isSome) = pieces at *
    cases pieces with
    | nil => simp
    | cons s rest =>
        obtain ⟨r, hr⟩ := Option.isSome_iff_exists.mp (hpicks s List.mem_cons_self)
        simp [hr]
  controls := by
    intro c hc
    unfold Program.normal at hc
    dsimp only at hc
    split at hc
    · cases hc
    · obtain ⟨_, -, hnormal⟩ := List.mem_filterMap.mp hc
      exact wellShaped_of_normal? hnormal

/-- When no control has steps that stand on their own, and those at the top level can be saved,
only the controls take another form. -/
theorem Program.normal_eq_of_no_loose {p : Program} (hsteps : p.steps.BeginWithPick)
    (hloose : ∀ c ∈ p.controls, c.loose = []) :
    p.normal = ⟨p.steps, p.controls.filterMap Control.normal?⟩ := by
  have hnone : p.controls.flatMap Control.loose = [] := List.flatMap_eq_nil_iff.mpr hloose
  obtain ⟨⟨pick, processing, place⟩, cs⟩ := p
  unfold Program.normal
  rw [hnone]
  cases pick with
  | some => simp [Steps.firsts]
  | none =>
      cases processing with
      | some => cases hsteps (.inl rfl)
      | none =>
          cases place with
          | some => cases hsteps (.inr rfl)
          | none => rfl

/-- When all controls are of known type, each of them takes its normal form by itself. -/
theorem Program.normal_eq_of_known {p : Program} (hsteps : p.steps.BeginWithPick)
    (hknown : ∀ c ∈ p.controls, c.kind?.isSome) :
    p.normal = ⟨p.steps, p.controls.filterMap Control.normal?⟩ := by
  apply Program.normal_eq_of_no_loose hsteps
  intro c hc
  obtain ⟨kind, hkind⟩ := Option.isSome_iff_exists.mp (hknown c hc)
  exact Control.loose_of_kind hkind

/-- A well-shaped program is its own normal form. -/
theorem Program.WellShaped.normal_eq {p : Program} (h : p.WellShaped) : p.normal = p := by
  have hknown : ∀ c ∈ p.controls, c.kind?.isSome := by
    intro c hc
    obtain ⟨kind, hkind, -⟩ := Option.bind_eq_some_iff.mp (h.controls c hc).normal?_eq
    simp [hkind]
  rw [Program.normal_eq_of_known h.steps hknown, filterMap_normal?_eq h.controls]

/-- Nothing is recorded when a well-shaped program is loaded. -/
theorem Program.WellShaped.pinned_eq {p : Program} (h : p.WellShaped) (layout : Layout) :
    (Graph.ofProgram .standard layout p).pinned = [] :=
  (Graph.pinned_ofProgram_eq_nil_iff layout p).mpr fun c hc => (h.controls c hc).findings_eq

/-- A program survives opening and saving exactly when it is well-shaped, and then loading has
nothing to record. -/
theorem round_trip_iff_wellShaped (layout : Layout) (p : Program) :
    ((Graph.ofProgram .standard layout p).toProgram = p ↔ p.WellShaped) ∧
      (p.WellShaped → (Graph.ofProgram .standard layout p).pinned = []) := by
  rw [toProgram_ofProgram_eq_normal]
  refine ⟨⟨fun h => ?_, fun h => h.normal_eq⟩, fun h => h.pinned_eq layout⟩
  rw [← h]
  exact wellShaped_normal p

/-- Opening and saving any program once makes it one that opens without findings and is saved
as it is. -/
theorem reopening_changes_nothing (layout layout' : Layout) (p : Program) :
    let saved := (Graph.ofProgram .standard layout p).toProgram
    (Graph.ofProgram .standard layout' saved).toProgram = saved ∧
      (Graph.ofProgram .standard layout' saved).pinned = [] := by
  simp only [toProgram_ofProgram_eq_normal]
  exact ⟨(wellShaped_normal p).normal_eq, (wellShaped_normal p).pinned_eq layout'⟩

end TaskDiagram
