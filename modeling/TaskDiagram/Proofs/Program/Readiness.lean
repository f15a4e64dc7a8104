import TaskDiagram.Proofs.Graph.Findings
import TaskDiagram.Proofs.Graph.Loading.Pieces
import TaskDiagram.Proofs.Program.SilentLoading

/-! # Programs that are ready

Loading a program and looking for findings decides whether the program could be carried out: every
movement has both of its ends, every control has what its type asks for, and every reference is to
an item of the library.
-/

namespace TaskDiagram

/-! ## What is ready -/

/-- The reference has an id, and if there is a catalog then that of one of its items. -/
def Reference.Resolved (catalog : Option Catalog) (kind : LibraryKind) (r : Reference) : Prop :=
  ∃ id, r.id = some id ∧
    ∀ library, catalog = some library → ∃ item ∈ library.items kind, item.id = id

/-- Something is picked up, and it is put down. -/
structure Steps.HasEnds (s : Steps) : Prop where
  pick : s.pick.isSome
  place : s.place.isSome

/-- Every step that is there refers to an item. -/
def Steps.Resolved (catalog : Option Catalog) (s : Steps) : Prop :=
  ∀ kind r, s.get kind = some r → r.Resolved catalog kind.entity

/-- A signal, or the search for an object that is named. -/
def Event.Ready (catalog : Option Catalog) (e : Event) : Prop :=
  e.type = some .sensor ∨ e.type = some .human ∨
    (e.type = some .findObject ∧ ∃ r, e.findObject = some r ∧ r.Resolved catalog .object)

/-- A control with all that its type asks for; whatever else is set does not matter. -/
structure Control.Ready (catalog : Option Catalog) (c : Control) : Prop where
  known : ∃ type, c.type = some type ∧ type.isKnown = true
  ends : c.steps.HasEnds
  resolved : c.steps.Resolved catalog
  count : c.type = some .repeated → ∃ n, c.times = some n ∧ 1 ≤ n ∧ n ≤ 99
  event : c.type = some .when ∨ c.type = some .whenOtherwise →
    ∃ e, c.event = some e ∧ e.Ready catalog
  otherwise : c.type = some .whenOtherwise →
    ∃ s, c.otherwise = some s ∧ s.HasEnds ∧ s.Resolved catalog

/-- A program in which nothing is missing. Controls in which nothing at all is set do not count. -/
structure Program.Ready (catalog : Option Catalog) (p : Program) : Prop where
  steps : p.steps = .empty ∨ p.steps.HasEnds
  resolved : p.steps.Resolved catalog
  controls : ∀ c ∈ p.controls, (∀ leaf, c.leaf? leaf = none) ∨ c.Ready catalog

/-- The sockets that must be filled under the standard grammar. -/
def Grammar.requiredSockets (kind : BlockKind) : List SocketName :=
  ((standardSpec kind).sockets.filter (·.required)).map (·.name)

namespace Tree

variable {catalog : Option Catalog}

/-! ## Trees that are put together -/

/-- Nothing is found about a block under the standard grammar when its reference is known, its
required sockets are filled, its count is set, and both ends of a movement are in each of its
branches. -/
theorem settled_standard_iff {t : Tree} : t.Settled .standard catalog ↔
    (∀ entity, t.kind.entity? = some entity → ∃ item, t.intField? fieldId = some item ∧
      ∀ library, catalog = some library → library.contains entity item = true) ∧
    (∀ socket ∈ Grammar.requiredSockets t.kind, (t.child? socket).isSome) ∧
    (t.kind = .repeated → (t.fields.get? fieldTimes).isSome) ∧
    ∀ socket ∈ Graph.branchSockets t.kind, FilledBranch (t.branch socket) := by
  have hinputs : (∀ spec, Grammar.standard.spec? t.kind = some spec →
      ∀ s ∈ spec.sockets, s.required = true → (t.child? s.name).isSome) ↔
        ∀ socket ∈ Grammar.requiredSockets t.kind, (t.child? socket).isSome := by
    rw [Grammar.requiredSockets, List.forall_mem_map, List.forall_mem_filter]
    exact ⟨fun h => h _ rfl, fun h spec hspec => Option.some.inj hspec ▸ h⟩
  rw [← hinputs]
  constructor
  · exact fun h => ⟨h.reference, h.inputs, h.count, h.branches⟩
  · exact fun h => ⟨h.1, h.2.1, h.2.2.1, h.2.2.2⟩

/-- What is behind a block in its chain does not matter to the block. -/
theorem OpenAt.settled_plug_iff {t : Tree} (h : t.OpenAt .next) (content : Option Tree) :
    (t.plug .next content).Settled .standard catalog ↔ t.Settled .standard catalog := by
  have hchild : ∀ socket ≠ .next, (t.plug .next content).child? socket = t.child? socket := by
    intro socket hs
    rw [child?_plug t h.child?, if_neg hs]
  have hrequired : ∀ socket ∈ Grammar.requiredSockets t.kind,
      (t.plug .next content).child? socket = t.child? socket := by
    have hnext : ∀ kind, ∀ socket ∈ Grammar.requiredSockets kind, socket ≠ .next := by
      intro kind
      cases kind <;> decide
    exact fun socket hs => hchild socket (hnext t.kind socket hs)
  have hbranches : ∀ socket ∈ Graph.branchSockets t.kind,
      (t.plug .next content).branch socket = t.branch socket := by
    intro socket hs
    rw [branch_eq, hchild socket (Graph.ne_next_of_mem_branchSockets hs), ← branch_eq]
  rw [settled_standard_iff, settled_standard_iff, kind_plug]
  refine and_congr Iff.rfl (and_congr ?_ (and_congr Iff.rfl ?_))
  · exact forall₂_congr fun socket hs => by rw [hrequired socket hs]
  · exact forall₂_congr fun socket hs => by rw [hbranches socket hs]

/-- Filling one more socket adds the condition on what is put into it. -/
theorem allSettledIn_plug {t : Tree} {socket : SocketName} {content : Option Tree} :
    AllSettledIn .standard catalog (t.plug socket content).inputs ↔
      AllSettledIn .standard catalog t.inputs ∧
        ∀ u, content = some u → u.AllSettled .standard catalog := by
  rw [inputs_plug, ← allSettledIn_inSocket socket]
  simp only [allSettledIn_iff, List.forall_mem_append]

/-- A chain is settled link by link. -/
theorem allSettled_nest {links : List Tree} (hopen : ∀ t ∈ links, t.OpenAt .next) :
    (∀ t, nest links = some t → t.AllSettled .standard catalog) ↔
      ∀ t ∈ links, t.AllSettled .standard catalog := by
  induction links with
  | nil => exact iff_of_true nofun nofun
  | cons link rest ih =>
      have hrest := ih fun t ht => hopen t (List.mem_cons_of_mem _ ht)
      rw [nest_cons, List.forall_mem_cons, ← hrest, allSettled_iff (t := link)]
      simp only [Option.some.injEq, forall_eq', allSettled_iff (t := link.plug _ _),
        allSettledIn_plug, (hopen link List.mem_cons_self).settled_plug_iff, and_assoc]

end Tree

/-! ## References -/

section References

variable {catalog : Option Catalog} {r : Reference} {entity : LibraryKind}

theorem Catalog.contains_iff {library : Catalog} {kind : LibraryKind} {id : Int64} :
    library.contains kind id = true ↔ ∃ item ∈ library.items kind, item.id = id := by
  simp [contains, byId?, List.find?_isSome]

/-- The block of a reference is settled when the reference is resolved. -/
theorem Reference.allSettled_iff : (∃ t, r.tree? entity = some t ∧ t.AllSettled .standard catalog) ↔
    r.Resolved catalog entity := by
  have hid : (Tree.node (.ofEntity entity) r.fields []).intField? fieldId = r.id := by
    rw [Tree.intField?, Tree.fields, r.get?_fields, if_pos rfl]
    cases r.id <;> rfl
  have hentity : (BlockKind.ofEntity entity).entity? = some entity := by cases entity <;> rfl
  have hbare : Grammar.requiredSockets (.ofEntity entity) = [] ∧
      BlockKind.ofEntity entity ≠ .repeated ∧ Graph.branchSockets (.ofEntity entity) = [] := by
    cases entity <;> decide
  have hsettled : (Tree.node (.ofEntity entity) r.fields []).AllSettled .standard catalog ↔
      r.Resolved catalog entity := by
    rw [Tree.allSettled_iff, Tree.settled_standard_iff, Tree.kind, hbare.1, hbare.2.2, hid, hentity]
    simp [Tree.allSettledIn_iff, Tree.inputs, hbare.2.1, Resolved, Catalog.contains_iff]
  unfold tree?
  split
  next hblank =>
    have hnone : r.id = none := by simp_all [isBlank]
    simp [Resolved, hnone]
  next => simpa using hsettled

/-- The kinds of blocks whose only use is to hold a reference. -/
def Tree.holders : List (BlockKind × LibraryKind) :=
  [(.pick, .object), (.processing, .action), (.place, .location), (.findObject, .object)]

/-- A block that only holds a reference is settled when the reference is resolved. -/
theorem Tree.allSettled_holding {kind : BlockKind} (hkind : (kind, entity) ∈ holders) :
    (holding kind entity r).AllSettled .standard catalog ↔ r.Resolved catalog entity := by
  have hholder : kind.entity? = none ∧ Grammar.requiredSockets kind = [.ofEntity entity] ∧
      kind ≠ .repeated ∧ Graph.branchSockets kind = [] := by
    have hall : ∀ holder ∈ holders, holder.1.entity? = none ∧
        Grammar.requiredSockets holder.1 = [.ofEntity holder.2] ∧ holder.1 ≠ .repeated ∧
        Graph.branchSockets holder.1 = [] := by decide
    exact hall _ hkind
  obtain ⟨hentity, hrequired, hcount, hbranches⟩ := hholder
  have hchild : (holding kind entity r).child? (.ofEntity entity) = r.tree? entity := by
    rw [holding, child?_plug _ rfl, if_pos rfl]
  have hinputs : AllSettledIn .standard catalog (holding kind entity r).inputs ↔
      ∀ t, r.tree? entity = some t → t.AllSettled .standard catalog := by
    rw [holding, allSettledIn_plug]
    exact and_iff_right trivial
  rw [allSettled_iff, settled_standard_iff, hinputs, kind_holding, hentity, hrequired, hbranches,
    ← Reference.allSettled_iff]
  simp only [reduceCtorEq, false_imp_iff, implies_true, true_and, List.forall_mem_singleton, hchild,
    hcount]
  cases r.tree? entity <;> simp

end References

/-! ## Steps and events -/

section Steps

variable {catalog : Option Catalog} {s : Steps}

theorem Steps.mem_toList {kind : StepKind} {r : Reference} :
    (kind, r) ∈ s.toList ↔ s.get kind = some r := by
  have hall : kind ∈ StepKind.all := by cases kind <;> decide
  simp [toList, hall]

/-- The blocks of steps are settled when each of the steps is resolved. -/
theorem Steps.allSettled_trees :
    (∀ t ∈ s.trees, t.AllSettled .standard catalog) ↔ s.Resolved catalog := by
  have hstep : ∀ kind r, (Tree.ofStep kind r).AllSettled .standard catalog ↔
      r.Resolved catalog kind.entity := fun kind r =>
    Tree.allSettled_holding (by cases kind <;> decide)
  simp only [trees, List.forall_mem_map, Prod.forall, Steps.mem_toList, hstep, Resolved]

/-- The blocks of steps are those of the steps that are there, in the order of a movement. -/
theorem Steps.stepKinds_trees :
    Tree.stepKinds s.trees = StepKind.all.filter fun kind => (s.get kind).isSome := by
  obtain ⟨pick, processing, place⟩ := s
  cases pick <;> cases processing <;> cases place <;> rfl

theorem Steps.mem_stepKinds {kind : StepKind} :
    kind ∈ Tree.stepKinds s.trees ↔ (s.get kind).isSome := by
  rw [stepKinds_trees, List.mem_filter]
  exact and_iff_right (by cases kind <;> decide)

theorem Steps.stepKinds_eq_nil_iff : Tree.stepKinds s.trees = [] ↔ s = .empty := by
  rw [stepKinds_trees]
  obtain ⟨pick, processing, place⟩ := s
  cases pick <;> cases processing <;> cases place <;> simp [StepKind.all, get, empty]

theorem Steps.nodup_stepKinds : (Tree.stepKinds s.trees).Nodup := by
  have hall : StepKind.all.Nodup := by decide
  exact stepKinds_trees ▸ hall.filter _

/-- The blocks of steps fill a branch when both ends of a movement are among them. -/
theorem Steps.filledBranch_trees : Tree.FilledBranch s.trees ↔ s.HasEnds := by
  constructor
  · intro h
    exact ⟨Steps.mem_stepKinds.mp h.pick, Steps.mem_stepKinds.mp h.place⟩
  · intro h
    exact ⟨Steps.nodup_stepKinds, Steps.mem_stepKinds.mpr h.pick, Steps.mem_stepKinds.mpr h.place,
      isLogic_trees s⟩

theorem Steps.resolved_empty : Steps.empty.Resolved catalog := by
  intro kind r hr
  cases kind <;> cases hr

/-- Steps that a socket accepts fill the branch in it when both ends of a movement are there. -/
theorem Steps.filledBranch_iff {t : Tree} {socket : SocketName} {owner : BlockKind}
    (hfit : s.fit owner socket = true) (hchild : t.child? socket = s.plugged owner socket) :
    Tree.FilledBranch (t.branch socket) ↔ s.HasEnds := by
  rw [Tree.branch_eq, hchild, plugged, if_pos hfit, tree?, Tree.chain_nest (openAt_trees s),
    filledBranch_trees]

theorem Steps.allSettled_plugged {owner : BlockKind} {socket : SocketName}
    (hfit : s.fit owner socket = true) :
    (∀ t, s.plugged owner socket = some t → t.AllSettled .standard catalog) ↔
      s.Resolved catalog := by
  rw [plugged, if_pos hfit, tree?, Tree.allSettled_nest (openAt_trees s), allSettled_trees]

end Steps

/-- The block of an event is settled when the event is ready. -/
theorem Event.allSettled_iff {catalog : Option Catalog} {e : Event} :
    (∃ t, e.tree? = some t ∧ t.AllSettled .standard catalog) ↔ e.Ready catalog := by
  have hsignal : ∀ kind, kind = .sensorSignal ∨ kind = .humanFeedback →
      (Tree.node kind .empty []).AllSettled .standard catalog := by
    rintro kind (rfl | rfl) <;>
      exact Tree.allSettled_iff.mpr ⟨Tree.settled_standard_iff.mpr ⟨nofun, nofun, nofun, nofun⟩,
        trivial⟩
  obtain ⟨type, target⟩ := e
  unfold tree? Ready
  cases type with
  | none => exact iff_of_false nofun (by simp)
  | some type =>
      cases type with
      | other => exact iff_of_false nofun (by simp)
      | sensor => simpa using hsignal .sensorSignal (.inl rfl)
      | human => simpa using hsignal .humanFeedback (.inr rfl)
      | findObject =>
          have hholding : (Tree.holding .findObject .object (target.getD .blank)).AllSettled
              .standard catalog ↔ (target.getD .blank).Resolved catalog .object :=
            Tree.allSettled_holding (by decide)
          cases target with
          | none => simpa [Reference.Resolved, Reference.blank] using hholding
          | some r => simpa using hholding

/-! ## Controls -/

section Control

variable {catalog : Option Catalog} {c : Control} {kind : BlockKind}

/-- What is in the sockets of a control is its event, its steps and its second branch, each of them
by itself. -/
theorem Control.allSettledIn_tree : Tree.AllSettledIn .standard catalog (c.tree kind).inputs ↔
    (∀ t, (c.guard? kind).bind Event.tree? = some t → t.AllSettled .standard catalog) ∧
      (∀ t, c.steps.plugged kind .body = some t → t.AllSettled .standard catalog) ∧
      ∀ t, (c.second kind).plugged kind .otherwise = some t → t.AllSettled .standard catalog := by
  rw [tree, Tree.allSettledIn_plug, Tree.allSettledIn_plug, Tree.allSettledIn_plug, and_assoc,
    and_assoc]
  exact and_iff_right trivial

theorem Control.get?_times_tree :
    ((c.tree .repeated).fields.get? fieldTimes).isSome = c.times.isSome := by
  change ((c.fields .repeated).get? fieldTimes).isSome = _
  unfold fields
  cases c.times <;> rfl

/-- A repetition has a count and nothing is reported about it when the count is between 1 and 99. -/
theorem Control.countFindings_eq_nil_iff :
    (c.countFindings .repeated = [] ∧ c.times.isSome) ↔
      ∃ n, c.times = some n ∧ 1 ≤ n ∧ n ≤ 99 := by
  unfold countFindings
  cases c.times with
  | none => simp
  | some n => simp [clampCount_eq_self_iff]

theorem Steps.refusal_eq_nil_iff {s : Steps} {owner : BlockKind} {socket : SocketName} :
    s.refusal owner socket = [] ↔ s.fit owner socket = true := by
  exact ⟨Steps.fit_of_no_refusal, fun hfit => if_pos hfit⟩

/-- The socket for an event is filled as it should be when the control has one that is ready. -/
theorem Control.guard_iff (hguarded : kind = .when ∨ kind = .whenOtherwise) :
    (((c.tree kind).child? .when).isSome ∧
      ∀ t, (c.guard? kind).bind Event.tree? = some t → t.AllSettled .standard catalog) ↔
        ∃ e, c.event = some e ∧ e.Ready catalog := by
  have hchild : (c.tree kind).child? .when = (c.guard? kind).bind Event.tree? :=
    child?_tree c kind .when
  rw [hchild, guard?, if_pos hguarded]
  simp only [← Event.allSettled_iff]
  cases c.event with
  | none => simp
  | some e => cases htree : e.tree? <;> simp [htree]

/-- The block of a control is settled when it has what its kind asks for. -/
theorem Control.allSettled_tree (hkind : kind ∈ Grammar.logicKinds)
    (hbody : c.steps.fit kind .body = true) (hsecond : (c.second kind).fit kind .otherwise = true) :
    (c.tree kind).AllSettled .standard catalog ↔
      (kind = .repeated → c.times.isSome) ∧
      (kind = .when ∨ kind = .whenOtherwise → ∃ e, c.event = some e ∧ e.Ready catalog) ∧
      (c.steps.HasEnds ∧ c.steps.Resolved catalog) ∧
      (kind = .whenOtherwise → (c.second kind).HasEnds) ∧ (c.second kind).Resolved catalog := by
  -- What the grammar asks of a logic block, read off for each of their kinds.
  have hlogic : ∀ kind ∈ Grammar.logicKinds, kind.entity? = none ∧
      Grammar.requiredSockets kind =
        (if kind = .when ∨ kind = .whenOtherwise then [.when] else []) ∧
      Graph.branchSockets kind =
        (if kind = .whenOtherwise then [.body, .otherwise] else [.body]) := by decide
  obtain ⟨hentity, hrequired, hbranches⟩ := hlogic kind hkind
  have hinputs : (∀ socket ∈ Grammar.requiredSockets kind, ((c.tree kind).child? socket).isSome) ↔
      (kind = .when ∨ kind = .whenOtherwise → ((c.tree kind).child? .when).isSome) := by
    rw [hrequired]
    split <;> simp_all
  have hbranches : (∀ socket ∈ Graph.branchSockets kind,
      Tree.FilledBranch ((c.tree kind).branch socket)) ↔
        c.steps.HasEnds ∧ (kind = .whenOtherwise → (c.second kind).HasEnds) := by
    rw [← Steps.filledBranch_iff hbody (child?_tree c kind .body),
      ← Steps.filledBranch_iff hsecond (child?_tree c kind .otherwise), hbranches]
    split <;> simp_all
  have hself : (c.tree kind).kind = kind := rfl
  have hcount : (kind = .repeated → ((c.tree kind).fields.get? fieldTimes).isSome) ↔
      (kind = .repeated → c.times.isSome) := by
    refine forall_congr' fun hrepeated => ?_
    subst hrepeated
    rw [get?_times_tree]
  have hguard : ((kind = .when ∨ kind = .whenOtherwise → ((c.tree kind).child? .when).isSome) ∧
      ∀ t, (c.guard? kind).bind Event.tree? = some t → t.AllSettled .standard catalog) ↔
        (kind = .when ∨ kind = .whenOtherwise → ∃ e, c.event = some e ∧ e.Ready catalog) := by
    by_cases hguarded : kind = .when ∨ kind = .whenOtherwise
    · simp only [hguarded, true_imp_iff, guard_iff hguarded]
    · have hnone : c.guard? kind = none := if_neg hguarded
      simp [hguarded, hnone]
  rw [Tree.allSettled_iff, Tree.settled_standard_iff, allSettledIn_tree, hself,
    Steps.allSettled_plugged hbody, Steps.allSettled_plugged hsecond, hentity, hinputs, hbranches,
    hcount, ← hguard]
  constructor
  · rintro ⟨⟨-, hinputs, hcount, hends, hother⟩, hevent, hsteps, hsecond⟩
    exact ⟨hcount, ⟨hinputs, hevent⟩, ⟨hends, hsteps⟩, hother, hsecond⟩
  · rintro ⟨hcount, ⟨hinputs, hevent⟩, ⟨hends, hsteps⟩, hother, hsecond⟩
    exact ⟨⟨nofun, hinputs, hcount, hends, hother⟩, hevent, hsteps, hsecond⟩

/-- The types of controls and the kinds of their blocks tell the same. -/
theorem Control.type_eq_iff (hkind : c.kind? = some kind) {other : BlockKind} {type : ControlType}
    (hother : Graph.controlType? other = some type) : c.type = some type ↔ kind = other := by
  constructor
  · intro htype
    have hself : c.kind? = some other := by
      rw [kind?, htype]
      cases other <;> cases hother <;> rfl
    exact Option.some.inj (hkind.symm.trans hself)
  · rintro rfl
    exact (type_of_kind? hkind).trans hother

/-- The second branch of a control is filled as it should be when the control has one. -/
theorem Control.second_iff :
    ((c.second .whenOtherwise).HasEnds ∧ (c.second .whenOtherwise).Resolved catalog) ↔
      ∃ s, c.otherwise = some s ∧ s.HasEnds ∧ s.Resolved catalog := by
  rw [second, if_pos rfl]
  cases c.otherwise with
  | none =>
      have hnone : ¬ Steps.empty.HasEnds := fun h => Bool.false_ne_true h.pick
      simp [hnone]
  | some s => simp

/-- Nothing is reported about a control when there is nothing to report about its count, its event
and either of its branches. -/
theorem Control.complaints_eq_nil_iff : c.complaints kind = [] ↔ c.countFindings kind = [] ∧
    ((c.guard? kind).map Event.findings).getD [] = [] ∧ c.steps.fit kind .body = true ∧
      (c.second kind).fit kind .otherwise = true := by
  simp only [complaints, List.append_eq_nil_iff, Steps.refusal_eq_nil_iff, and_assoc]

/-- Nothing is reported about an event that is ready. -/
theorem Event.Ready.findings_eq {e : Event} (h : e.Ready catalog) : e.findings = [] := by
  unfold findings
  rcases h with h | h | ⟨h, -⟩ <;> rw [h]

/-- What a control needs to be ready, told by the kind of its block. -/
theorem Control.ready_iff_of_kind (hkind : c.kind? = some kind) : c.Ready catalog ↔
    (kind = .repeated → ∃ n, c.times = some n ∧ 1 ≤ n ∧ n ≤ 99) ∧
    (kind = .when ∨ kind = .whenOtherwise → ∃ e, c.event = some e ∧ e.Ready catalog) ∧
    (c.steps.HasEnds ∧ c.steps.Resolved catalog) ∧
    (kind = .whenOtherwise → (c.second kind).HasEnds) ∧ (c.second kind).Resolved catalog := by
  have hrepeated : c.type = some .repeated ↔ kind = .repeated := type_eq_iff hkind rfl
  have htwoWay : c.type = some .whenOtherwise ↔ kind = .whenOtherwise := type_eq_iff hkind rfl
  have hguarded : (c.type = some .when ∨ c.type = some .whenOtherwise) ↔
      (kind = .when ∨ kind = .whenOtherwise) := or_congr (type_eq_iff hkind rfl) htwoWay
  rw [← hrepeated, ← hguarded]
  constructor
  · intro h
    have hsecond : kind = .whenOtherwise →
        (c.second kind).HasEnds ∧ (c.second kind).Resolved catalog := by
      rintro rfl
      exact second_iff.mpr (h.otherwise (htwoWay.mpr rfl))
    refine ⟨h.count, h.event, ⟨h.ends, h.resolved⟩, fun hself => (hsecond hself).1, ?_⟩
    by_cases hself : kind = .whenOtherwise
    · exact (hsecond hself).2
    · rw [second, if_neg hself]
      exact Steps.resolved_empty
  · rintro ⟨hcount, hevent, ⟨hends, hresolved⟩, hother, hresolvedOther⟩
    refine ⟨?_, hends, hresolved, hcount, hevent, fun h => ?_⟩
    · exact (isSome_kind? c).mp (Option.isSome_of_eq_some hkind)
    · obtain rfl := htwoWay.mp h
      exact second_iff.mp ⟨hother rfl, hresolvedOther⟩

/-- The block of a control that is ready is filled without findings. -/
theorem Control.Ready.complaints_eq (h : c.Ready catalog) (hkind : c.kind? = some kind) :
    c.complaints kind = [] := by
  obtain ⟨hcount, hevent, ⟨hends, -⟩, hother, -⟩ := (ready_iff_of_kind hkind).mp h
  refine complaints_eq_nil_iff.mpr ⟨?_, ?_, ?_, ?_⟩
  · by_cases hself : kind = .repeated
    · subst hself
      exact (countFindings_eq_nil_iff.mpr (hcount rfl)).1
    · unfold countFindings
      cases kind <;> first | rfl | exact absurd rfl hself
  · unfold guard?
    split
    next hself =>
      obtain ⟨e, he, hready⟩ := hevent hself
      rw [he]
      exact hready.findings_eq
    next => rfl
  · have hall : ∀ kind ∈ Grammar.logicKinds, .body ∈ Graph.branchSockets kind := by decide
    exact Graph.Steps.fit_of_pick hends.pick (hall kind (Graph.mem_logicKinds hkind))
  · by_cases hself : kind = .whenOtherwise
    · exact Graph.Steps.fit_of_pick (hother hself).pick (by rw [hself]; decide)
    · rw [second, if_neg hself]
      rfl

/-- A control of known type is loaded without findings and its block is settled when the control
is ready. -/
theorem Control.ready_iff (hkind : c.kind? = some kind) :
    (c.findings = [] ∧ (c.tree kind).AllSettled .standard catalog) ↔ c.Ready catalog := by
  have hlogic := Graph.mem_logicKinds hkind
  have hfindings : c.findings = c.complaints kind := by rw [findings, hkind]
  rw [hfindings]
  constructor
  · rintro ⟨hsilent, hsettled⟩
    obtain ⟨hcount, -, hbody, hsecond⟩ := complaints_eq_nil_iff.mp hsilent
    obtain ⟨htimes, hothers⟩ := (allSettled_tree hlogic hbody hsecond).mp hsettled
    refine (ready_iff_of_kind hkind).mpr ⟨fun hself => ?_, hothers⟩
    subst hself
    exact countFindings_eq_nil_iff.mp ⟨hcount, htimes rfl⟩
  · intro h
    have hsilent := h.complaints_eq hkind
    obtain ⟨-, -, hbody, hsecond⟩ := complaints_eq_nil_iff.mp hsilent
    obtain ⟨hcount, hothers⟩ := (ready_iff_of_kind hkind).mp h
    refine ⟨hsilent, (allSettled_tree hlogic hbody hsecond).mpr ⟨fun hself => ?_, hothers⟩⟩
    obtain ⟨n, hn, -⟩ := hcount hself
    exact Option.isSome_of_eq_some hn

theorem Control.Ready.exists_kind (h : c.Ready catalog) : ∃ kind, c.kind? = some kind :=
  Option.isSome_iff_exists.mp ((isSome_kind? c).mpr h.known)

theorem Control.findings_of_isSkipped (h : c.isSkipped = true) : c.findings = [] := by
  have hunset : c.type = none ∧ c.isUnset = true := by simpa [isSkipped] using h
  rw [findings, kind?_of_isSkipped h]
  exact if_pos hunset

/-- A control that is loaded without findings leaves no chain over. -/
theorem Control.strays_of_no_findings (h : c.findings = []) : c.strays = [] := by
  unfold strays
  cases hkind : c.kind? with
  | none =>
      have hskipped := isSkipped_of_no_findings h hkind
      exact if_pos (by simpa [isSkipped] using hskipped)
  | some kind =>
      have hbody := fit_body_of_no_findings h hkind
      have hsecond := fit_otherwise_of_no_findings h hkind
      dsimp only
      rw [refused, Steps.detached, Steps.detached, if_pos hbody, if_pos hsecond]
      rfl

end Control

/-! ## Programs -/

section Program

variable {catalog : Option Catalog} {p : Program} {s : Steps} {cs : List Control}

/-- The chain of the steps with controls behind them, if there are any. -/
def Steps.joined (s : Steps) (cs : List Control) : List Tree :=
  (Tree.nest (s.trees ++ Control.trees cs)).toList

/-- The controls are behind the steps, or in a chain of their own. -/
theorem Program.chains_cases (p : Program) : p.chains = p.steps.joined p.controls ∨
    p.chains = p.steps.joined [] ++ Steps.empty.joined p.controls := by
  have hsteps : p.steps.joined [] = p.steps.tree?.toList := by
    rw [Steps.joined, Steps.tree?, show Control.trees [] = [] from rfl, List.append_nil]
  rw [chains, hsteps]
  split
  · exact .inl rfl
  · exact .inr rfl

/-- When no chain of a control is left over, the roots are the chains of the program. -/
theorem Program.trees_eq_chains (h : ∀ c ∈ p.controls, c.strays = []) : p.trees = p.chains := by
  have hstrays : p.controls.flatMap Control.strays = [] := List.flatMap_eq_nil_iff.mpr h
  rw [trees, chains, hstrays, Control.roots_eq_nest h, List.append_nil]

theorem Control.forall_trees {P : Tree → Prop} : (∀ t ∈ Control.trees cs, P t) ↔
    ∀ c ∈ cs, ∀ kind, c.kind? = some kind → P (c.tree kind) := by
  constructor
  · exact fun h c hc kind hkind => h _ (Control.tree_mem_trees hc hkind)
  · intro h t ht
    obtain ⟨c, hc, htree⟩ := List.mem_filterMap.mp ht
    obtain ⟨kind, hkind, rfl⟩ := Option.map_eq_some_iff.mp htree
    exact h c hc kind hkind

/-- Steps with controls behind them are settled when both are. -/
theorem Steps.allSettled_joined : (∀ t ∈ s.joined cs, t.AllSettled .standard catalog) ↔
    s.Resolved catalog ∧
      ∀ c ∈ cs, ∀ kind, c.kind? = some kind → (c.tree kind).AllSettled .standard catalog := by
  simp only [joined, Option.mem_toList]
  rw [Tree.allSettled_nest (openAt_links s cs), List.forall_mem_append, Steps.allSettled_trees,
    Control.forall_trees]

theorem Steps.leading_joined : (s.joined cs).flatMap Tree.leading = s.trees := by
  unfold joined
  cases hnest : Tree.nest (s.trees ++ Control.trees cs) with
  | none => exact (List.append_eq_nil_iff.mp (Tree.nest_eq_none_iff.mp hnest)).1.symm
  | some t => rw [Option.toList_some, List.flatMap_singleton, (split_nest hnest).1]

/-- Steps with controls behind them begin a chain that counts, unless they begin with something
other than a pick. -/
theorem Steps.isRoot_joined : (∀ t ∈ s.joined cs, Grammar.standard.isRoot t.kind = true) ↔
    s.pick.isSome ∨ s = .empty := by
  unfold joined
  cases hnest : Tree.nest (s.trees ++ Control.trees cs) with
  | none =>
      have htrees := (List.append_eq_nil_iff.mp (Tree.nest_eq_none_iff.mp hnest)).1
      have hempty : s = .empty := toList_eq_nil_iff.mp (List.map_eq_nil_iff.mp htrees)
      exact iff_of_true nofun (.inr hempty)
  | some t => simp [isRoot_nest hnest, toList_eq_nil_iff]

/-- The chains of a program are settled when its steps and its controls are, wherever the controls
stand. -/
theorem Program.allSettled_chains : (∀ t ∈ p.chains, t.AllSettled .standard catalog) ↔
    p.steps.Resolved catalog ∧ ∀ c ∈ p.controls, ∀ kind, c.kind? = some kind →
      (c.tree kind).AllSettled .standard catalog := by
  rcases p.chains_cases with h | h <;> rw [h]
  · exact Steps.allSettled_joined
  · rw [List.forall_mem_append, Steps.allSettled_joined, Steps.allSettled_joined]
    simp [Steps.resolved_empty]

theorem Program.leading_chains : p.chains.flatMap Tree.leading = p.steps.trees := by
  rcases p.chains_cases with h | h <;> rw [h]
  · exact Steps.leading_joined
  · rw [List.flatMap_append, Steps.leading_joined, Steps.leading_joined]
    exact List.append_nil _

/-- Every chain counts at the top level when the steps begin with a pick or there are none. -/
theorem Program.counted_chains : Tree.counted .standard false p.chains = p.chains ↔
    p.steps.pick.isSome ∨ p.steps = .empty := by
  have hsteps : ∀ t ∈ p.steps.joined [], t.controls = [] := by
    intro t ht
    exact (split_nest (Option.mem_toList.mp ht)).2
  have hcounted : Tree.counted .standard false p.chains =
      p.chains.filter (Grammar.standard.isRoot ·.kind) := by
    have haround : ∀ (before : List Tree) (chain : Option Tree),
        (∀ t ∈ before, t.controls = []) →
          Tree.counted .standard false (before ++ chain.toList) =
            (before ++ chain.toList).filter (Grammar.standard.isRoot ·.kind) := by
      intro before chain hbefore
      have hcounted : Tree.counted .standard false (before ++ (chain.toList ++ [])) =
          (before ++ (chain.toList ++ [])).filter (Grammar.standard.isRoot ·.kind) :=
        counted_around hbefore nofun
      rwa [List.append_nil] at hcounted
    rcases p.chains_cases with h | h <;> rw [h]
    · exact haround [] _ nofun
    · exact haround _ _ hsteps
  rw [hcounted, List.filter_eq_self]
  rcases p.chains_cases with h | h <;> rw [h]
  · exact Steps.isRoot_joined
  · rw [List.forall_mem_append, Steps.isRoot_joined, Steps.isRoot_joined]
    simp

/-- The top level is filled when both ends of a movement are there or no step at all. -/
theorem Program.filledTop_chains :
    Tree.FilledTop .standard p.chains ↔ p.steps = .empty ∨ p.steps.HasEnds := by
  have hends : (.pick ∈ Tree.stepKinds p.steps.trees ∧ .place ∈ Tree.stepKinds p.steps.trees) ↔
      p.steps.HasEnds := by
    rw [Steps.mem_stepKinds, Steps.mem_stepKinds]
    exact ⟨fun h => ⟨h.1, h.2⟩, fun h => ⟨h.pick, h.place⟩⟩
  constructor
  · intro h
    have hfilled := h.ends
    rwa [leading_chains, Steps.stepKinds_eq_nil_iff, hends] at hfilled
  · intro h
    refine ⟨counted_chains.mpr ?_, ?_, ?_⟩
    · exact h.symm.imp_left Steps.HasEnds.pick
    · rw [leading_chains]
      exact Steps.nodup_stepKinds
    · rwa [leading_chains, Steps.stepKinds_eq_nil_iff, hends]

end Program

/-- Nothing is found about a loaded program exactly when it is ready, with or without a library
to look references up in. -/
theorem silent_iff_ready (layout : Layout) (catalog : Option Catalog) (p : Program) :
    (Graph.ofProgram .standard layout p).validate catalog = [] ↔ p.Ready catalog := by
  have htrees : (∀ c ∈ p.controls, c.findings = []) → p.trees = p.chains := fun h =>
    Program.trees_eq_chains fun c hc => Control.strays_of_no_findings (h c hc)
  rw [Graph.validate_eq, List.append_eq_nil_iff, Graph.pinned_ofProgram_eq_nil_iff,
    (Graph.isForest_ofProgram layout p).found_eq_nil_iff, Graph.forest_ofProgram,
    Graph.grammar_ofProgram]
  constructor
  · rintro ⟨hfindings, hsettled, htop⟩
    rw [htrees hfindings] at hsettled htop
    obtain ⟨hresolved, hcontrols⟩ := Program.allSettled_chains.mp hsettled
    refine ⟨Program.filledTop_chains.mp htop, hresolved, fun c hc => ?_⟩
    cases hkind : c.kind? with
    | none =>
        left
        exact Control.isSkipped_iff_leaf?.mp
          (Control.isSkipped_of_no_findings (hfindings c hc) hkind)
    | some kind =>
        right
        exact (Control.ready_iff hkind).mp ⟨hfindings c hc, hcontrols c hc kind hkind⟩
  · intro h
    have hcontrols : ∀ c ∈ p.controls, c.findings = [] ∧
        ∀ kind, c.kind? = some kind → (c.tree kind).AllSettled .standard catalog := by
      intro c hc
      rcases h.controls c hc with hblank | hready
      · have hskipped := Control.isSkipped_iff_leaf?.mpr hblank
        refine ⟨Control.findings_of_isSkipped hskipped, fun kind hkind => ?_⟩
        rw [Control.kind?_of_isSkipped hskipped] at hkind
        cases hkind
      · obtain ⟨kind, hkind⟩ := hready.exists_kind
        obtain ⟨hfindings, hsettled⟩ := (Control.ready_iff hkind).mpr hready
        exact ⟨hfindings, fun other hother => Option.some.inj (hkind.symm.trans hother) ▸ hsettled⟩
    have hfindings := fun c hc => (hcontrols c hc).1
    rw [htrees hfindings]
    exact ⟨hfindings, Program.allSettled_chains.mpr ⟨h.resolved, fun c hc => (hcontrols c hc).2⟩,
      Program.filledTop_chains.mpr h.steps⟩

end TaskDiagram
