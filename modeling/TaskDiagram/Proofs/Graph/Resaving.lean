import TaskDiagram.Program.Draft
import TaskDiagram.Proofs.Graph.Accounting
import TaskDiagram.Proofs.Graph.Reloaded
import TaskDiagram.Proofs.Program.Stored

/-! # Saving, opening and saving again

Whatever edits have made of a diagram, opening what was saved and saving it again drops
one thing only: a searched object in which nothing is set. The block that stood for it
is not made again. Storing the program in between makes no difference.
-/

namespace TaskDiagram

/-- The event without an object in which nothing is set. -/
def Event.tidy (e : Event) : Event := { e with findObject := Reference.compact e.findObject }

/-- The control whose event searches no object in which nothing is set. -/
def Control.tidy (c : Control) : Control := { c with event := c.event.map Event.tidy }

/-- The program whose events search no object in which nothing is set. -/
def Program.tidy (p : Program) : Program := { p with controls := p.controls.map Control.tidy }

theorem Reference.isBlank_iff {r : Reference} : r.isBlank = true ↔ r = .blank := by
  obtain ⟨name, id⟩ := r
  simp [isBlank, blank]

/-- An event is tidy unless it searches an object in which nothing is set. -/
theorem Event.tidy_eq_self_iff {e : Event} : e.tidy = e ↔ e.findObject ≠ some .blank := by
  obtain ⟨type, findObject⟩ := e
  cases findObject with
  | none => simp [tidy, Reference.compact]
  | some r =>
      simp only [tidy, Reference.compact, Event.mk.injEq, true_and, ne_eq, Option.some.injEq,
        ← Reference.isBlank_iff]
      cases hblank : r.isBlank <;> simp [Option.filter, hblank]

theorem Control.tidy_eq_self_iff {c : Control} :
    c.tidy = c ↔ ∀ e ∈ c.event, e.findObject ≠ some .blank := by
  obtain ⟨type, times, event, otherwise, steps⟩ := c
  cases event <;> simp [tidy, Event.tidy_eq_self_iff]

/-- A program is tidy when all its events are. -/
theorem Program.tidy_eq_self_iff {p : Program} :
    p.tidy = p ↔ ∀ c ∈ p.controls, ∀ e ∈ c.event, e.findObject ≠ some .blank := by
  obtain ⟨steps, controls⟩ := p
  simp only [tidy, Program.mk.injEq, true_and]
  have hmap : controls.map Control.tidy = controls ↔ ∀ c ∈ controls, c.tidy = c := by
    simpa using List.map_inj_left (f := Control.tidy) (g := id) (l := controls)
  simp only [hmap, Control.tidy_eq_self_iff]

namespace Graph

variable {g : Graph} {id : BlockId} {kind : BlockKind} {socket : SocketName} {type : ControlType}

/-! ## What is read from single blocks -/

/-- The search for an object is opened and saved but for an object in which nothing is set. -/
theorem normal_findObject (target : Option Reference) :
    (⟨some .findObject, target⟩ : Event).normal = (⟨some .findObject, target⟩ : Event).tidy := by
  cases target with
  | none => rfl
  | some r =>
      cases hblank : r.isBlank <;>
        simp [Event.normal, Event.tidy, Reference.compact, Option.filter, hblank]

/-- What guards a block is read as nothing, as a signal or as a search for an object. -/
theorem readEvent_cases (g : Graph) (id : BlockId) :
    g.readEvent id = .blank ∨ g.readEvent id = ⟨some .sensor, none⟩ ∨
      g.readEvent id = ⟨some .human, none⟩ ∨
      ∃ target, g.readEvent id = ⟨some .findObject, target⟩ := by
  unfold readEvent
  cases g.child? id .when with
  | none => exact .inl rfl
  | some child =>
      dsimp only
      cases g.kind? child with
      | none => exact .inl rfl
      | some kind =>
          cases kind with
          | sensorSignal => exact .inr (.inl rfl)
          | humanFeedback => exact .inr (.inr (.inl rfl))
          | findObject => exact .inr (.inr (.inr ⟨_, rfl⟩))
          | _ => exact .inl rfl

/-- What guards a block is opened and saved but for an object in which nothing is set. -/
theorem normal_readEvent (g : Graph) (id : BlockId) :
    (g.readEvent id).normal = (g.readEvent id).tidy := by
  rcases g.readEvent_cases id with h | h | h | ⟨target, h⟩ <;> rw [h]
  · rfl
  · rfl
  · rfl
  · exact normal_findObject target

theorem readable_readEvent (g : Graph) (id : BlockId) :
    ∀ type ∈ (g.readEvent id).type, type.Readable := by
  rcases g.readEvent_cases id with h | h | h | ⟨target, h⟩ <;> rw [h]
  · exact nofun
  all_goals exact fun type hmem => Option.some.inj hmem ▸ .of_known rfl

theorem readable_controlAs (htype : controlType? kind = some type) :
    (g.controlAs id kind type).Readable where
  type := by
    intro other hmem
    obtain rfl := Option.some.inj hmem
    exact .of_known (by cases kind <;> cases htype <;> rfl)
  event := by
    intro e he
    simp only [controlAs] at he
    split at he
    · exact Option.some.inj he ▸ readable_readEvent g id
    · cases he

theorem readable_readControl {c : Control} (h : g.readControl id = some c) : c.Readable := by
  obtain ⟨b, hb, h⟩ := Option.bind_eq_some_iff.mp h
  obtain ⟨type, htype, -⟩ := Option.bind_eq_some_iff.mp h
  have hkind : g.kind? id = some b.kind := Option.map_eq_some_iff.mpr ⟨b, hb, rfl⟩
  obtain rfl := Option.some.inj ((readControl_eq_controlAs hkind htype).symm.trans
    (Option.bind_eq_some_iff.mpr ⟨b, hb, h⟩))
  exact readable_controlAs htype

/-- What is saved has only types that are read again as they are. -/
theorem readable_toProgram (g : Graph) : ∀ c ∈ g.toProgram.controls, c.Readable := by
  intro c hc
  obtain ⟨id, -, hread⟩ := List.mem_filterMap.mp hc
  exact readable_readControl hread

theorem readSteps_of_no_steps {ids : List BlockId}
    (h : ∀ id ∈ ids, g.isLogicBlock id = true) : g.readSteps ids = .empty := by
  have hnone : ∀ step, g.firstStep? ids step = none := by
    intro step
    cases hfirst : g.firstStep? ids step with
    | none => rfl
    | some id =>
        have hlogic := h id (mem_of_firstStep? hfirst)
        rw [isLogicBlock_eq_of_kind (kind_of_firstStep? hfirst), isLogic_ofStep] at hlogic
        cases hlogic
  simp only [readSteps, readStep_eq_firstStep?, hnone]
  rfl

theorem pick_readSteps {ids : List BlockId} (hid : id ∈ ids) (hkind : g.kind? id = some .pick) :
    (g.readSteps ids).pick.isSome := by
  change (g.readStep ids .pick).isSome
  rw [readStep_eq_firstStep?, Option.isSome_map]
  exact firstStep?_isSome hid hkind

namespace Edited

/-- A count that is read lies within the bounds of its field. -/
theorem clampCount_intField (h : g.Edited) {b : Block} (hb : g.block? id = some b)
    (hkind : b.kind = .repeated) :
    (b.intField? fieldTimes).map clampCount = b.intField? fieldTimes := by
  cases htimes : b.intField? fieldTimes with
  | none => rfl
  | some n =>
      obtain ⟨value, hvalue, hn⟩ := Option.bind_eq_some_iff.mp htimes
      have hcheck := h.checkField hb hvalue
      rw [hkind] at hcheck
      obtain ⟨-, m, hm, hclamp⟩ := of_checkField_repeated hcheck
      obtain rfl := Option.some.inj (hn.symm.trans hm)
      rw [Option.map_some, hclamp]

/-- What is read from a branch is accepted by its socket again. -/
theorem fit_branch (h : g.Edited) (hkind : g.kind? id = some kind)
    (hsocket : socket ∈ branchSockets kind) :
    (g.readSteps (g.branch id socket)).fit kind socket = true := by
  cases hhead : g.child? id socket with
  | none =>
      rw [branch_of_empty hhead]
      rfl
  | some head =>
      rw [branch_of_child? hhead]
      obtain ⟨below, hbelow, haccepts⟩ := h.accepts hkind hhead
      have hlive := live_of_kind? hbelow
      cases hlogic : below.isLogic with
      | true =>
          rw [readSteps_of_no_steps (h.isLogic_of_mem_chain hbelow hlogic)]
          rfl
      | false =>
          rcases Clean.head_of_accepts hsocket haccepts hlogic with rfl | rfl
          · exact Steps.fit_of_pick (pick_readSteps (h.forest.mem_chain_self hlive) hbelow) hsocket
          · -- Nothing follows a place, and the socket has accepted one before.
            rw [h.forest.chain_of_last hlive (h.child?_eq_none hbelow rfl)]
            have hread : g.readSteps [head] =
                ⟨none, none, some (g.readReference head .location)⟩ := by
              simp [readSteps, readStep, hbelow, BlockKind.ofStep]
              rfl
            rw [hread]
            exact haccepts

/-- A logic block is opened and saved but for a searched object in which nothing is set. -/
theorem normal?_controlAs (h : g.Edited) (hkind : g.kind? id = some kind)
    (htype : controlType? kind = some type) :
    (g.controlAs id kind type).normal? = some (g.controlAs id kind type).tidy := by
  obtain ⟨b, hb, rfl⟩ := Option.map_eq_some_iff.mp hkind
  have hbody : (g.readSteps (g.branch id .body)).kept b.kind .body =
      g.readSteps (g.branch id .body) :=
    kept_of_fit (h.fit_branch hkind (mem_branchSockets (isLogic_of_controlType? htype)))
  have hotherwise : b.kind = .whenOtherwise →
      (g.readSteps (g.branch id .otherwise)).kept b.kind .otherwise =
        g.readSteps (g.branch id .otherwise) := by
    intro hself
    exact kept_of_fit (h.fit_branch hkind (hself ▸ by decide))
  have htimes := h.clampCount_intField hb
  have hevent := normal_readEvent g id
  rw [Control.normal?, kind?_controlAs htype, Option.bind_some, htype, Option.map_some]
  congr 1
  generalize hself : b.kind = kind at *
  cases kind with
  | loop => simp [Control.normalAs, controlAs, Control.tidy, hbody]
  | repeated => simp [Control.normalAs, controlAs, Control.tidy, hbody, hb, htimes rfl]
  | when => simp [Control.normalAs, controlAs, Control.tidy, hbody, hevent]
  | whenOtherwise =>
      simp [Control.normalAs, controlAs, Control.tidy, hbody, hevent, hotherwise rfl]
  | _ => cases htype

/-! ## The program -/

/-- Where any step counts at the top level, a pick does. -/
theorem beginWithPick_steps (h : g.Edited) : g.toProgram.steps.BeginWithPick := by
  have hany : ∀ step, (g.toProgram.steps.get step).isSome → g.toProgram.steps.pick.isSome := by
    intro step hstep
    obtain ⟨r, hr⟩ := Option.isSome_iff_exists.mp hstep
    have htop : g.toProgram.stepsAt? .top = some g.toProgram.steps := rfl
    obtain ⟨id, hsaved⟩ := h.exists_savedStep htop hr
    obtain ⟨chain, hchain, hmem⟩ := List.mem_flatMap.mp (mem_of_firstStep? hsaved.first)
    obtain ⟨root, hroot, ⟨kind, hkind, hcounts⟩, rfl⟩ := exists_of_mem_chains hchain
    have hsteps : (g.rootChain root).steps ≠ [] := List.ne_nil_of_mem hmem
    rw [rootChain, h.forest.chain_eq (live_of_kind? hkind), List.takeWhile_cons,
      isLogicBlock_eq_of_kind hkind] at hsteps
    -- The root begins with a step and may be a root, so it is a pick.
    have hlogic : kind.isLogic = false := by
      cases hself : kind.isLogic with
      | false => rfl
      | true => simp [hself] at hsteps
    obtain rfl : kind = .pick := by
      rw [h.grammar] at hcounts
      revert hlogic hcounts
      cases kind <;> decide
    refine pick_readSteps (List.mem_flatMap.mpr ⟨_, hchain, ?_⟩) hkind
    simp [rootChain, h.forest.chain_eq (live_of_kind? hkind), isLogicBlock_eq_of_kind hkind, hlogic]
  rintro (hprocessing | hplace)
  · exact hany .processing hprocessing
  · exact hany .place hplace

/-- Every saved control is read from a logic block. -/
theorem exists_controlAs (h : g.Edited) {c : Control} (hc : c ∈ g.toProgram.controls) :
    ∃ id kind type, g.kind? id = some kind ∧ controlType? kind = some type ∧
      c = g.controlAs id kind type := by
  obtain ⟨id, hid, hread⟩ := List.mem_filterMap.mp hc
  obtain ⟨kind, type, hkind, htype, hcontrolAs⟩ :=
    exists_readControl (h.isLogic_of_mem_controlBlocks hid)
  exact ⟨id, kind, type, hkind, htype, Option.some.inj (hread.symm.trans hcontrolAs)⟩

/-- What is saved is opened and saved but for searched objects in which nothing is set. -/
theorem normal_toProgram (h : g.Edited) : g.toProgram.normal = g.toProgram.tidy := by
  have hknown : ∀ c ∈ g.toProgram.controls, c.kind?.isSome := by
    intro c hc
    obtain ⟨id, kind, type, -, htype, rfl⟩ := h.exists_controlAs hc
    rw [kind?_controlAs htype]
    rfl
  have hcontrols : ∀ c ∈ g.toProgram.controls, c.normal? = some c.tidy := by
    intro c hc
    obtain ⟨id, kind, type, hkind, htype, rfl⟩ := h.exists_controlAs hc
    exact h.normal?_controlAs hkind htype
  rw [Program.normal_eq_of_known h.beginWithPick_steps hknown, List.filterMap_congr hcontrols,
    List.filterMap_eq_map', Program.tidy]

end Edited

/-- What is saved of any diagram is opened and saved again as it is but for searched objects in
which nothing is set, whether or not it is stored and read in between. So it stays as it is
exactly when it searches for no such object. -/
theorem resaving_drops_blank_targets (layout : Layout) (edits : List GraphEdit) :
    let saved := ((empty .standard).run edits).toProgram
    (ofProgram .standard layout saved).toProgram = saved.tidy ∧
      (Program.ofDocument saved.graphicDocument = .ok saved.stored ∧
        (ofProgram .standard layout saved.stored).toProgram = saved.tidy) ∧
      (saved.tidy = saved ↔
        ∀ c ∈ saved.controls, ∀ e ∈ c.event, e.findObject ≠ some .blank) := by
  have h := edited_run edits
  have hreadable : ∀ c ∈ ((empty .standard).run edits).toProgram.controls, c.Readable := by
    intro c hc
    obtain ⟨id, kind, type, -, htype, rfl⟩ := h.exists_controlAs hc
    exact readable_controlAs htype
  refine ⟨?_, ⟨Program.ofDocument_graphicDocument hreadable, ?_⟩, Program.tidy_eq_self_iff⟩
  · rw [toProgram_ofProgram_eq_normal, h.normal_toProgram]
  · rw [toProgram_ofProgram_eq_normal, Program.normal_stored, h.normal_toProgram]

/-- An object that is searched for and not yet chosen is saved the first time only. -/
theorem blank_target_is_lost :
    let waiting := [GraphEdit.insert .when, .insert .findObject, .insert .objectRef,
      .connect 1 .object 2, .connect 0 .when 1]
    let saved := ((empty .standard).run waiting).toProgram
    let resaved := (ofProgram .standard .standard saved).toProgram
    saved.controls.map (·.event) = [some ⟨some .findObject, some .blank⟩] ∧
      resaved.controls.map (·.event) = [some ⟨some .findObject, none⟩] ∧ resaved ≠ saved := by
  intro waiting saved resaved
  have hsaved : saved.controls.map (·.event) = [some ⟨some .findObject, some .blank⟩] := by decide
  have hresaved : resaved.controls.map (·.event) = [some ⟨some .findObject, none⟩] := by
    have hnormal : resaved = saved.normal := toProgram_ofProgram_eq_normal .standard saved
    rw [hnormal]
    decide
  refine ⟨hsaved, hresaved, fun heq => ?_⟩
  rw [heq, hsaved] at hresaved
  cases hresaved

end Graph

end TaskDiagram
