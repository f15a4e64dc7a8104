import TaskDiagram.Proofs.Graph.Branches
import TaskDiagram.Proofs.Graph.Chains
import TaskDiagram.Proofs.Graph.Clean
import TaskDiagram.Proofs.Graph.Resemblance
import TaskDiagram.Proofs.Program.RoundTrip

/-! # What a diagram without findings is loaded into again

Each block of such a diagram is saved in full: what is loaded for the saved step or
control looks like the block it came from.
-/

namespace TaskDiagram

theorem Reference.get?_fields (r : Reference) (name : String) :
    r.fields.get? name =
      if name = fieldId then r.id.map .int
      else if name = fieldName then r.name.map .text
      else none := by
  have hne : fieldName ≠ fieldId := by decide
  obtain ⟨text, id⟩ := r
  cases text <;> cases id <;> simp only [fields, TextMap.get?_insert, TextMap.get?_empty] <;>
    by_cases hid : name = fieldId <;> by_cases hname : name = fieldName <;> simp_all

namespace Graph

variable {g : Graph}

/-! ## References -/

theorem of_checkField_reference {entity : LibraryKind} {name : String} {value : FieldValue}
    (h : Grammar.standard.checkField (.ofEntity entity) name value = .ok ()) :
    (name = fieldName ∧ ∃ s, value = .text s) ∨ (name = fieldId ∧ ∃ n, value.asInt = some n) := by
  have hspec : Grammar.standard.field? (.ofEntity entity) name =
      [(⟨fieldName, .text, none⟩ : FieldSpec), ⟨fieldId, .integer, none⟩].find? (·.name == name) := by
    cases entity <;> rfl
  unfold Grammar.checkField at h
  rw [hspec] at h
  by_cases hname : name = fieldName
  · subst hname
    refine .inl ⟨rfl, ?_⟩
    cases value with
    | text s => exact ⟨s, rfl⟩
    | _ => cases h
  · by_cases hid : name = fieldId
    · subst hid
      refine .inr ⟨rfl, ?_⟩
      cases hvalue : value.asInt with
      | some n => exact ⟨n, rfl⟩
      | none => simp [hvalue, List.find?, fieldName, fieldId] at h
    · have hname : (fieldName == name) = false := by simpa using Ne.symm hname
      have hid : (fieldId == name) = false := by simpa using Ne.symm hid
      simp [List.find?, hname, hid] at h

theorem asText_of_asInt {value : FieldValue} {n : Int64} (h : value.asInt = some n) :
    value.asText = none := by
  cases value with
  | text => cases h
  | _ => rfl

namespace Clean

variable {id child : BlockId} {entity : LibraryKind}

/-- A library block looks like what is loaded for the reference that is read from it. -/
theorem resembles_reference (h : g.Clean) (hc : g.child? id (.ofEntity entity) = some child)
    (hkind : g.kind? child = some (.ofEntity entity)) :
    ∃ t, (g.readReference id (.ofEntity entity)).tree? entity = some t ∧ g.Resembles t child := by
  obtain ⟨b, hb, hbkind⟩ := Option.map_eq_some_iff.mp hkind
  obtain ⟨n, hn⟩ := h.exists_id hb hbkind
  have hread : g.readReference id (.ofEntity entity) = ⟨b.textField? fieldName, some n⟩ := by
    simp [readReference, hc, hb, hn]
  have hblank : (⟨b.textField? fieldName, some n⟩ : Reference).isBlank = false := by
    simp [Reference.isBlank]
  refine ⟨_, by rw [hread, Reference.tree?, hblank]; rfl, ?_⟩
  refine resembles_of_rel hb hbkind (fun name => ?_) fun socket => ?_
  · -- Of the fields of a library block only the name and the id are admitted.
    have hget := Reference.get?_fields ⟨b.textField? fieldName, some n⟩ name
    simp only [Tree.fields, hget]
    unfold Block.intField? Block.textField? Block.field? at *
    cases hvalue : b.fields.get? name with
    | none =>
        have hid : name ≠ fieldId := by
          rintro rfl
          rw [hvalue] at hn
          cases hn
        by_cases hname : name = fieldName
        · subst hname
          simp [hid, hvalue]
        · simp [hid, hname]
    | some value =>
        have hcheck := h.checkField hb hvalue
        rw [hbkind] at hcheck
        rcases of_checkField_reference hcheck with ⟨rfl, s, rfl⟩ | ⟨rfl, m, hm⟩
        · rw [if_neg (by decide), if_pos rfl, hvalue]
          exact ⟨rfl, rfl, rfl⟩
        · rw [hvalue, Option.bind_some, hm] at hn
          obtain rfl := Option.some.inj hn
          rw [if_pos rfl]
          exact ⟨rfl, asText_of_asInt hm, hm⟩
  · have hnone : g.child? child socket = none :=
      h.child?_eq_none hkind (by cases entity <;> cases socket <;> rfl)
    rw [hnone]
    exact .none

/-! ## Steps and events -/

/-- Kinds of blocks that only keep a reference to a library item. -/
structure Keeps (kind : BlockKind) (entity : LibraryKind) : Prop where
  fields : (Grammar.standardSpec kind).fields = []
  required : ∃ spec ∈ (Grammar.standardSpec kind).sockets,
    spec.name = .ofEntity entity ∧ spec.required = true
  accepted : Grammar.standard.accepted kind (.ofEntity entity) = [.ofEntity entity]
  others : ∀ socket, socket ≠ .ofEntity entity → socket ≠ .next →
    Grammar.standard.accepted kind socket = []

theorem keeps_ofStep (step : StepKind) : Keeps (.ofStep step) step.entity where
  fields := by cases step <;> rfl
  required := by cases step <;> exact ⟨_, List.mem_cons_self, rfl, rfl⟩
  accepted := by cases step <;> rfl
  others socket := by cases step <;> cases socket <;> decide

theorem keeps_findObject : Keeps .findObject .object where
  fields := rfl
  required := ⟨_, List.mem_cons_self, rfl, rfl⟩
  accepted := rfl
  others socket := by cases socket <;> decide

variable {kind : BlockKind} {after : Option Tree}

/-- A block that keeps a reference looks like what is loaded for it. -/
theorem resembles_holding (h : g.Clean) (hkind : g.kind? id = some kind) (hkeeps : Keeps kind entity)
    (hafter : Option.Rel g.Resembles after (g.child? id .next)) :
    g.Resembles ((Tree.holding kind entity (g.readReference id (.ofEntity entity))).plug .next after)
      id := by
  obtain ⟨spec, hspec, hname, hrequired⟩ := hkeeps.required
  obtain ⟨child, below, hc, hbelow, haccepts⟩ := h.required hkind hspec hrequired
  rw [hname] at hc haccepts
  rw [Grammar.accepts, hkeeps.accepted] at haccepts
  obtain rfl : below = .ofEntity entity := by simpa using haccepts
  obtain ⟨t, ht, hresembles⟩ := h.resembles_reference hc hbelow
  obtain ⟨b, hb, hbkind⟩ := Option.map_eq_some_iff.mp hkind
  have hempty : b.fields = .empty := h.no_fields hb (hbkind ▸ hkeeps.fields)
  have hopen : (Tree.holding kind entity (g.readReference id (.ofEntity entity))).OpenAt .next :=
    (Tree.openAt_nil _ _ _).plug (by cases entity <;> decide) _
  refine resembles_of_rel hb hbkind (hempty ▸ .refl _) fun socket => ?_
  rw [Tree.child?_plug _ hopen.child?]
  split
  next hs => exact hs ▸ hafter
  next hs =>
    rw [Tree.holding, Tree.child?_plug _ rfl]
    split
    next hentity =>
      rw [hentity, ht, hc]
      exact .some hresembles
    next hentity =>
      rw [h.child?_eq_none hkind (hkeeps.others socket hentity hs)]
      exact .none

theorem resembles_step (h : g.Clean) {step : StepKind} (hkind : g.kind? id = some (.ofStep step))
    (hafter : Option.Rel g.Resembles after (g.child? id .next)) :
    g.Resembles ((Tree.ofStep step (g.readReference id (.ofEntity step.entity))).plug .next after)
      id :=
  h.resembles_holding hkind (keeps_ofStep step) hafter

/-- A chain of steps looks like what is loaded for the steps that are read from it. -/
theorem resembles_steps (h : g.Clean) {head : BlockId} (hchain : g.StepChain head) :
    (g.readSteps (g.leading head)).pick.isSome ∧ (g.readSteps (g.leading head)).place.isSome ∧
      ∃ t, (g.readSteps (g.leading head)).tree? = some t ∧ g.Resembles t head := by
  obtain ⟨hpick, hrest⟩ := hchain
  have hfirst : g.kind? head = some (.ofStep .pick) := hpick
  rcases hrest with ⟨place, hnext, hplace⟩ | ⟨processing, place, hnext, hprocessing, hthird, hplace⟩
  · have hlast : g.kind? place = some (.ofStep .place) := hplace
    have hend := h.next_of_place hplace
    have hids : g.leading head = [head, place] := by
      rw [h.leading_eq hfirst, hnext, Option.map_some, Option.getD_some, h.leading_eq hlast, hend]
      rfl
    have hread : g.readSteps [head, place] = ⟨some (g.readReference head .object), none,
        some (g.readReference place .location)⟩ := by
      simp [readSteps, readStep, hpick, hplace, BlockKind.ofStep]
      exact ⟨rfl, rfl⟩
    rw [hids, hread]
    refine ⟨rfl, rfl, _, rfl, ?_⟩
    refine h.resembles_step hfirst (hnext ▸ .some ?_)
    exact h.resembles_step hlast (hend ▸ .none)
  · have hsecond : g.kind? processing = some (.ofStep .processing) := hprocessing
    have hlast : g.kind? place = some (.ofStep .place) := hplace
    have hend := h.next_of_place hplace
    have hids : g.leading head = [head, processing, place] := by
      rw [h.leading_eq hfirst, hnext, Option.map_some, Option.getD_some, h.leading_eq hsecond,
        hthird, Option.map_some, Option.getD_some, h.leading_eq hlast, hend]
      rfl
    have hread : g.readSteps [head, processing, place] = ⟨some (g.readReference head .object),
        some (g.readReference processing .action), some (g.readReference place .location)⟩ := by
      simp [readSteps, readStep, hpick, hprocessing, hplace, BlockKind.ofStep]
      exact ⟨rfl, rfl, rfl⟩
    rw [hids, hread]
    refine ⟨rfl, rfl, _, rfl, ?_⟩
    refine h.resembles_step hfirst (hnext ▸ .some ?_)
    refine h.resembles_step hsecond (hthird ▸ .some ?_)
    exact h.resembles_step hlast (hend ▸ .none)

/-- The event in a guarded block looks like what is loaded for the event that is read. -/
theorem resembles_event (h : g.Clean) (hkind : g.kind? id = some kind)
    (hguarded : kind = .when ∨ kind = .whenOtherwise) :
    Option.Rel g.Resembles (g.readEvent id).tree? (g.child? id .when) := by
  have hspec : (⟨.when, Grammar.eventKinds, true⟩ : SocketSpec) ∈
      (Grammar.standardSpec kind).sockets := by
    rcases hguarded with rfl | rfl <;> decide
  obtain ⟨child, below, hc, hbelow, haccepts⟩ := h.required hkind hspec rfl
  -- The socket must be filled, and it accepts three kinds only.
  have hevent : below ∈ Grammar.eventKinds := by
    rcases hguarded with rfl | rfl <;> exact List.contains_iff_mem.mp haccepts
  obtain ⟨b, hb, hbkind⟩ := Option.map_eq_some_iff.mp hbelow
  have hbare : below ≠ .findObject → g.Resembles (.node below .empty []) child := by
    intro hne
    refine resembles_of_rel hb hbkind ?_ fun socket => ?_
    · rw [h.no_fields hb (by subst hbkind; revert hevent hne; cases b.kind <;> decide)]
      exact .refl _
    · rw [h.child?_eq_none hbelow (by revert hevent hne; cases below <;> cases socket <;> decide)]
      exact .none
  have hnext : Option.Rel g.Resembles none (g.child? child .next) := by
    rw [h.child?_eq_none hbelow (by revert hevent; cases below <;> decide)]
    exact .none
  rw [hc]
  unfold readEvent
  rw [hc]
  simp only [hbelow]
  cases below with
  | sensorSignal => exact .some (hbare nofun)
  | humanFeedback => exact .some (hbare nofun)
  | findObject =>
      obtain ⟨item, -, hitem, -, -⟩ := h.required hbelow List.mem_cons_self rfl
      have hholding := h.resembles_holding hbelow keeps_findObject hnext
      rw [Tree.plug_none] at hholding
      simp only [show g.child? child .object = some item from hitem]
      exact .some hholding
  | _ => simp [Grammar.eventKinds] at hevent

end Clean

/-! ## Logic blocks -/

theorem of_checkField_repeated {name : String} {value : FieldValue}
    (h : Grammar.standard.checkField .repeated name value = .ok ()) :
    name = fieldTimes ∧ ∃ n, value.asInt = some n ∧ clampCount n = n := by
  have hspec : Grammar.standard.field? .repeated name = [(⟨fieldTimes,
      .bounded Grammar.repeatMin Grammar.repeatMax, some (.int Grammar.repeatDefault)⟩ :
        FieldSpec)].find? (·.name == name) := rfl
  unfold Grammar.checkField at h
  rw [hspec] at h
  by_cases hname : name = fieldTimes
  · subst hname
    refine ⟨rfl, ?_⟩
    cases hvalue : value.asInt with
    | none => simp [hvalue] at h
    | some n =>
        simp only [hvalue, List.find?_cons, beq_self_eq_true] at h
        split at h
        next hwithin =>
          rw [Bool.and_eq_true, decide_eq_true_eq, decide_eq_true_eq] at hwithin
          exact ⟨n, rfl, clampCount_of_within hwithin.1 hwithin.2⟩
        next => cases h
  · have hname : (fieldTimes == name) = false := by simpa using Ne.symm hname
    simp [List.find?, hname] at h

theorem mem_branchSockets {kind : BlockKind} (hlogic : kind.isLogic = true) :
    .body ∈ branchSockets kind := by
  revert hlogic
  cases kind <;> decide

theorem Steps.fit_of_pick {s : Steps} (hpick : s.pick.isSome) {kind : BlockKind}
    {socket : SocketName} (hsocket : socket ∈ branchSockets kind) : s.fit kind socket = true := by
  have hall : Grammar.standard.accepts kind socket .pick = true := by
    revert hsocket
    cases kind <;> cases socket <;> decide
  obtain ⟨pick, processing, place⟩ := s
  cases pick with
  | none => cases hpick
  | some => exact hall

theorem kind?_controlAs {id : BlockId} {kind : BlockKind} {type : ControlType}
    (htype : controlType? kind = some type) : (g.controlAs id kind type).kind? = some kind := by
  cases kind <;> cases htype <;> rfl

namespace Clean

variable {id : BlockId} {kind : BlockKind} {type : ControlType}

/-- A branch is loaded where it was. -/
theorem resembles_branch (h : g.Clean) (hkind : g.kind? id = some kind) {socket : SocketName}
    (hsocket : socket ∈ branchSockets kind) :
    (g.readSteps (g.branch id socket)).fit kind socket = true ∧
      Option.Rel g.Resembles (g.readSteps (g.branch id socket)).tree? (g.child? id socket) := by
  obtain ⟨head, hhead, hchain, hleading⟩ := h.exists_branch hkind hsocket
  obtain ⟨hpick, -, t, ht, hresembles⟩ := h.resembles_steps hchain
  rw [branch_of_child? hhead, hleading, hhead, ht]
  exact ⟨Steps.fit_of_pick hpick hsocket, .some hresembles⟩

/-- The fields of a logic block are read alike from what is loaded for it. -/
theorem alike_control (h : g.Clean) {b : Block} (hb : g.block? id = some b)
    (htype : controlType? b.kind = some type) :
    FieldMap.Alike b.fields ((g.controlAs id b.kind type).fields b.kind) := by
  -- Only a repetition has a field, and nothing but its count is admitted there.
  by_cases hkind : b.kind = .repeated
  · obtain ⟨value, hvalue⟩ := h.exists_times hb hkind
    have hcheck := h.checkField hb hvalue
    rw [hkind] at hcheck
    obtain ⟨-, n, hn, hclamp⟩ := of_checkField_repeated hcheck
    have htimes : (g.controlAs id .repeated type).times = some n := by
      simp [controlAs, hb, Block.intField?, Block.field?, hvalue, hn]
    have hfields : (g.controlAs id .repeated type).fields .repeated =
        .insert .empty fieldTimes (.int n) := by
      simp [Control.fields, htimes, hclamp]
    rw [hkind, hfields]
    intro name
    rw [TextMap.get?_insert]
    by_cases hname : name = fieldTimes
    · subst hname
      rw [if_pos rfl, hvalue]
      exact ⟨rfl, asText_of_asInt hn, hn⟩
    · have hnone : b.fields.get? name = none := by
        cases hother : b.fields.get? name with
        | none => rfl
        | some other =>
            have hcheck := h.checkField hb hother
            rw [hkind] at hcheck
            exact absurd (of_checkField_repeated hcheck).1 hname
      rw [if_neg hname, hnone]
      exact ⟨rfl, rfl, rfl⟩
  · have hnone : (Grammar.standardSpec b.kind).fields = [] := by
      have hlogic := isLogic_of_controlType? htype
      revert hkind hlogic
      cases b.kind <;> first | exact fun _ _ => rfl | decide
    have hfields : (g.controlAs id b.kind type).fields b.kind = .empty := by
      revert hkind
      generalize b.kind = kind
      unfold Control.fields
      cases kind <;> simp
    rw [h.no_fields hb hnone, hfields]
    exact .refl _

/-- The second branch of a logic block is loaded where it was, if the block has one. -/
theorem resembles_second (h : g.Clean) (type : ControlType)
    (hkind : g.kind? id = some kind) (hlogic : kind.isLogic = true) :
    ((g.controlAs id kind type).second kind).fit kind .otherwise = true ∧
      Option.Rel g.Resembles ((g.controlAs id kind type).second kind).tree?
        (g.child? id .otherwise) := by
  by_cases hk : kind = .whenOtherwise
  · subst hk
    exact h.resembles_branch hkind (by decide)
  · have hnone : g.child? id .otherwise = none := by
      apply h.child?_eq_none hkind
      revert hk hlogic
      cases kind <;> decide
    rw [show (g.controlAs id kind type).second kind = .empty from if_neg hk, hnone]
    exact ⟨rfl, .none⟩

/-- The guard of a logic block is loaded where it was, if the block has one. -/
theorem resembles_guard (h : g.Clean) (type : ControlType)
    (hkind : g.kind? id = some kind) (hlogic : kind.isLogic = true) :
    Option.Rel g.Resembles (((g.controlAs id kind type).guard? kind).bind Event.tree?)
      (g.child? id .when) := by
  by_cases hk : kind = .when ∨ kind = .whenOtherwise
  · have hevent : (g.controlAs id kind type).event = some (g.readEvent id) := by
      simp [controlAs, hk]
    rw [Control.guard?, if_pos hk, hevent]
    exact h.resembles_event hkind hk
  · have hnone : g.child? id .when = none := by
      apply h.child?_eq_none hkind
      revert hk hlogic
      cases kind <;> decide
    rw [Control.guard?, if_neg hk, hnone]
    exact .none

/-- What is plugged into a logic block is loaded where it was. -/
theorem resembles_sockets (h : g.Clean) (hkind : g.kind? id = some kind)
    (htype : controlType? kind = some type) {socket : SocketName} (hs : socket ≠ .next) :
    Option.Rel g.Resembles (((g.controlAs id kind type).tree kind).child? socket)
      (g.child? id socket) := by
  have hlogic := isLogic_of_controlType? htype
  rw [child?_tree]
  split
  next hsocket =>
    subst hsocket
    obtain ⟨hfit, hresembles⟩ := h.resembles_second type hkind hlogic
    rw [Steps.plugged, if_pos hfit]
    exact hresembles
  next hsocket =>
    split
    next hbody =>
      subst hbody
      obtain ⟨hfit, hresembles⟩ := h.resembles_branch hkind (mem_branchSockets hlogic)
      have hsteps : (g.controlAs id kind type).steps = g.readSteps (g.branch id .body) := rfl
      rw [hsteps, Steps.plugged, if_pos hfit]
      exact hresembles
    next hbody =>
      split
      next hwhen =>
        subst hwhen
        exact h.resembles_guard type hkind hlogic
      next hwhen =>
        have hnone : g.child? id socket = none := by
          apply h.child?_eq_none hkind
          revert hs hsocket hbody hwhen hlogic
          cases kind <;> cases socket <;> decide
        rw [hnone]
        exact .none

/-- All that is read from a logic block is kept in it. -/
theorem strays_controlAs (h : g.Clean) (hkind : g.kind? id = some kind)
    (htype : controlType? kind = some type) : (g.controlAs id kind type).strays = [] := by
  have hlogic := isLogic_of_controlType? htype
  have hbody : (g.controlAs id kind type).steps.fit kind .body = true :=
    (h.resembles_branch hkind (mem_branchSockets hlogic)).1
  have hotherwise := (h.resembles_second type hkind hlogic).1
  rw [Control.strays, kind?_controlAs htype]
  simp only [Control.refused, Steps.detached, if_pos hbody, if_pos hotherwise, List.append_nil]

/-- A logic block looks like what is loaded for the control that is read from it. -/
theorem resembles_control (h : g.Clean) (hkind : g.kind? id = some kind)
    (htype : controlType? kind = some type) {after : Option Tree}
    (hafter : Option.Rel g.Resembles after (g.child? id .next)) :
    g.Resembles (((g.controlAs id kind type).tree kind).plug .next after) id := by
  obtain ⟨b, hb, rfl⟩ := Option.map_eq_some_iff.mp hkind
  refine resembles_of_rel hb rfl (h.alike_control hb htype) fun socket => ?_
  rw [Tree.child?_plug _ (openAt_tree _ _).child?]
  split
  next hs => exact hs ▸ hafter
  next hs => exact h.resembles_sockets hkind htype hs

/-- Behind a logic block there is nothing or another one. -/
theorem isLogic_next (h : g.Clean) (hkind : g.kind? id = some kind) (hlogic : kind.isLogic = true)
    {next : BlockId} (hnext : g.child? id .next = some next) :
    ∃ below, g.kind? next = some below ∧ below.isLogic = true :=
  h.edited.isLogic_next hkind hlogic hnext

/-- The controls that are read from the blocks of a chain are kept whole, and what is loaded for
them looks like the chain. -/
structure KeptControls (g : Graph) (ids : List BlockId) (head : Option BlockId) : Prop where
  whole : ∀ c ∈ ids.filterMap g.readControl, c.kind?.isSome ∧ c.strays = []
  resembles : Option.Rel g.Resembles (Tree.nest (Control.trees (ids.filterMap g.readControl))) head

theorem keptControls_nil (g : Graph) : KeptControls g [] none where
  whole c hc := by simp at hc
  resembles := .none

theorem keptControls_cons (h : g.Clean) (hkind : g.kind? id = some kind)
    (hlogic : kind.isLogic = true) {ids : List BlockId}
    (hrest : KeptControls g ids (g.child? id .next)) : KeptControls g (id :: ids) (some id) := by
  obtain ⟨type, htype⟩ := exists_controlType? hlogic
  have hself : (g.controlAs id kind type).kind? = some kind := kind?_controlAs htype
  have hread := readControl_eq_controlAs hkind htype
  constructor
  · intro c hc
    rw [List.filterMap_cons, hread] at hc
    rcases List.mem_cons.mp hc with rfl | hc
    · exact ⟨by rw [hself]; rfl, h.strays_controlAs hkind htype⟩
    · exact hrest.whole c hc
  · have htrees : Control.trees ((id :: ids).filterMap g.readControl) =
        (g.controlAs id kind type).tree kind :: Control.trees (ids.filterMap g.readControl) := by
      rw [List.filterMap_cons, hread, Control.trees, List.filterMap_cons, hself]
      rfl
    rw [htrees, Tree.nest_cons]
    exact .some (h.resembles_control hkind htype hrest.resembles)

/-- A chain of logic blocks looks like what is loaded for the controls that are read from it. -/
theorem keptControls_chain (h : g.Clean) {head : BlockId} {kind : BlockKind}
    (hkind : g.kind? head = some kind) (hlogic : kind.isLogic = true) :
    KeptControls g (g.chain head) (some head) := by
  have hlive := live_of_kind? hkind
  induction head, hlive using h.forest.chain_induction generalizing kind with
  | step head hlive ih =>
      cases hnext : g.child? head .next with
      | none =>
          rw [h.forest.chain_of_last hlive hnext]
          exact h.keptControls_cons hkind hlogic (hnext ▸ keptControls_nil g)
      | some next =>
          obtain ⟨below, hbelow, hlogicBelow⟩ := h.isLogic_next hkind hlogic hnext
          rw [h.forest.chain_of_next hnext]
          apply h.keptControls_cons hkind hlogic
          rw [hnext]
          exact ih next hnext hbelow hlogicBelow

end Clean

end Graph

end TaskDiagram
