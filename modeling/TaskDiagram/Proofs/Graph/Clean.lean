import Mathlib.Data.List.TakeWhile
import TaskDiagram.Proofs.Graph.Branches
import TaskDiagram.Proofs.Graph.Edited

/-! # Diagrams without findings

What the absence of findings says of a diagram under the standard grammar. Branches are
a pick, perhaps a processing, and a place. Sockets that must be filled are, references
have ids, repetitions have counts, and every root starts a chain that is saved.
-/

namespace TaskDiagram.Graph

variable {g : Graph}

/-- A diagram that edits lead to under the standard grammar, without findings. -/
structure Clean (g : Graph) : Prop where
  forest : g.IsForest
  grammar : g.grammar = .standard
  fields : g.FieldsAdmitted
  silent : g.validate none = []

namespace Clean

variable {id parent child : BlockId} {kind : BlockKind} {socket : SocketName}

theorem edited (h : g.Clean) : g.Edited := ⟨h.forest, h.grammar, h.fields⟩

/-- Nothing is found about any block. -/
theorem block (h : g.Clean) {b : Block} (hb : g.block? id = some b) :
    g.blockFindings none id b = [] := by
  have hsilent := h.silent
  unfold validate at hsilent
  simp only [List.append_eq_nil_iff] at hsilent
  exact List.flatMap_eq_nil_iff.mp hsilent.1.1.2 (id, b) (mem_blocks.mpr hb)

theorem topBranch (h : g.Clean) : g.checkBranch none g.topLevel.stepBlocks = [] := by
  have hsilent := h.silent
  unfold validate at hsilent
  simp only [List.append_eq_nil_iff] at hsilent
  exact hsilent.1.2

/-- The head of a stray chain is a block that is there. -/
theorem kind_of_orphan {taken : Bool} {roots : List BlockId} {head : BlockId}
    (h : head ∈ (g.topLevelOf taken roots).orphans) : ∃ kind, g.kind? head = some kind := by
  induction roots generalizing taken with
  | nil => cases h
  | cons root rest ih =>
      rw [topLevelOf] at h
      cases hkind : g.kind? root with
      | none =>
          simp only [hkind] at h
          exact ih h
      | some kind =>
          simp only [hkind] at h
          split at h
          · rcases List.mem_cons.mp h with rfl | h
            · exact ⟨kind, hkind⟩
            · exact ih h
          · exact ih h

/-- No chain is stray. -/
theorem no_orphans (h : g.Clean) : g.topLevel.orphans = [] := by
  have hsilent := h.silent
  unfold validate at hsilent
  simp only [List.append_eq_nil_iff] at hsilent
  apply List.eq_nil_iff_forall_not_mem.mpr
  intro head hhead
  obtain ⟨kind, hkind⟩ := kind_of_orphan hhead
  have hnone := List.filterMap_eq_nil_iff.mp hsilent.2 head hhead
  rw [hkind] at hnone
  cases hnone

/-! ## Links -/

/-- The grammar accepts what is in a socket. -/
theorem accepts (h : g.Clean) (hkind : g.kind? parent = some kind)
    (hc : g.child? parent socket = some child) :
    ∃ below, g.kind? child = some below ∧ Grammar.standard.accepts kind socket below = true :=
  h.edited.accepts hkind hc

/-- Nothing is in a socket that accepts nothing. -/
theorem child?_eq_none (h : g.Clean) (hkind : g.kind? id = some kind)
    (hnone : Grammar.standard.accepted kind socket = []) : g.child? id socket = none :=
  h.edited.child?_eq_none hkind hnone

/-- A socket that must be filled is filled. -/
theorem required (h : g.Clean) (hkind : g.kind? id = some kind) {spec : SocketSpec}
    (hspec : spec ∈ (Grammar.standardSpec kind).sockets) (hrequired : spec.required = true) :
    ∃ child below, g.child? id spec.name = some child ∧ g.kind? child = some below ∧
      Grammar.standard.accepts kind spec.name below = true := by
  obtain ⟨b, hb, rfl⟩ := Option.map_eq_some_iff.mp hkind
  have hnone := h.block hb
  simp only [blockFindings, List.append_eq_nil_iff] at hnone
  have hspecified : g.grammar.spec? b.kind = some (Grammar.standardSpec b.kind) := by
    rw [h.grammar]
    rfl
  obtain ⟨child, hchild⟩ := Option.isSome_iff_exists.mp
    (inputFindings_eq_nil_iff.mp hnone.1.1.2 _ hspecified spec hspec hrequired)
  have hc : g.child? id spec.name = some child := by rw [child?, hb]; exact hchild
  obtain ⟨below, hbelow, haccepts⟩ := h.accepts hkind hc
  exact ⟨child, below, hc, hbelow, haccepts⟩

/-! ## Fields -/

/-- Fields hold values that may be put into them. -/
theorem checkField (h : g.Clean) {b : Block} (hb : g.block? id = some b) {name : String}
    {value : FieldValue} (hvalue : b.fields.get? name = some value) :
    Grammar.standard.checkField b.kind name value = .ok () :=
  h.edited.checkField hb hvalue

/-- A block of a kind without fields has none. -/
theorem no_fields (h : g.Clean) {b : Block} (hb : g.block? id = some b)
    (hnone : (Grammar.standardSpec b.kind).fields = []) : b.fields = .empty :=
  h.edited.no_fields hb hnone

/-- A library block has an id. -/
theorem exists_id (h : g.Clean) {b : Block} (hb : g.block? id = some b) {entity : LibraryKind}
    (hentity : b.kind = .ofEntity entity) : ∃ n, b.intField? fieldId = some n := by
  have hnone := h.block hb
  simp only [blockFindings, List.append_eq_nil_iff] at hnone
  have hsome : b.kind.entity? = some entity := by
    rw [hentity]
    cases entity <;> rfl
  obtain ⟨n, hn, -⟩ := referenceFindings_eq_nil_iff.mp hnone.1.1.1 entity hsome
  exact ⟨n, hn⟩

/-- A repetition has a count. -/
theorem exists_times (h : g.Clean) {b : Block} (hb : g.block? id = some b)
    (hkind : b.kind = .repeated) : ∃ value, b.fields.get? fieldTimes = some value := by
  have hnone := h.block hb
  simp only [blockFindings, List.append_eq_nil_iff] at hnone
  exact Option.isSome_iff_exists.mp (countFindings_eq_nil_iff.mp hnone.1.2 hkind)

end Clean

/-! ## Branches -/

/-- A pick, perhaps a processing, and a place, one behind the other. -/
structure StepChain (g : Graph) (head : BlockId) : Prop where
  pick : g.kind? head = some .pick
  rest : (∃ place, g.child? head .next = some place ∧ g.kind? place = some .place) ∨
    ∃ processing place, g.child? head .next = some processing ∧
      g.kind? processing = some .processing ∧ g.child? processing .next = some place ∧
      g.kind? place = some .place

/-- The steps with which a chain begins. -/
def leading (g : Graph) (head : BlockId) : List BlockId :=
  (g.chain head).takeWhile (!g.isLogicBlock ·)

namespace Clean

theorem next_of_place (h : g.Clean) {id : BlockId} (hkind : g.kind? id = some .place) :
    g.child? id .next = none :=
  h.child?_eq_none hkind rfl

/-- The steps with which a chain begins are its first step and those with which the rest begins. -/
theorem leading_eq (h : g.Clean) {id : BlockId} {step : StepKind}
    (hkind : g.kind? id = some (.ofStep step)) :
    g.leading id = id :: ((g.child? id .next).map g.leading).getD [] := by
  have hlogic : (!g.isLogicBlock id) = true := by
    rw [isLogicBlock, hkind]
    cases step <;> rfl
  unfold leading
  rw [h.forest.chain_eq (live_of_kind? hkind), List.takeWhile_cons, if_pos hlogic, branch]
  cases g.child? id .next <;> rfl

theorem leading_of_logic (h : g.Clean) {id : BlockId} {kind : BlockKind}
    (hkind : g.kind? id = some kind) (hlogic : kind.isLogic = true) : g.leading id = [] := by
  have hself : ¬ (!g.isLogicBlock id) = true := by simp [isLogicBlock, hkind, hlogic]
  rw [leading, h.forest.chain_eq (live_of_kind? hkind), List.takeWhile_cons, if_neg hself]

theorem stepKinds_leading (h : g.Clean) {id : BlockId} {step : StepKind}
    (hkind : g.kind? id = some (.ofStep step)) :
    g.stepKinds (g.leading id) =
      step :: ((g.child? id .next).map fun next => g.stepKinds (g.leading next)).getD [] := by
  have hstep : (BlockKind.ofStep step).step? = some step := by cases step <;> rfl
  rw [h.leading_eq hkind, stepKinds, List.filterMap_cons, hkind, Option.bind_some, hstep]
  cases g.child? id .next <;> rfl

theorem kind_behind_pick (h : g.Clean) {id next : BlockId} (hkind : g.kind? id = some .pick)
    (hnext : g.child? id .next = some next) :
    g.kind? next = some .place ∨ g.kind? next = some .processing := by
  obtain ⟨kind, hnextKind, haccepts⟩ := h.accepts hkind hnext
  rw [hnextKind]
  cases kind <;> revert haccepts <;> decide

theorem kind_behind_processing (h : g.Clean) {id next : BlockId}
    (hkind : g.kind? id = some .processing) (hnext : g.child? id .next = some next) :
    g.kind? next = some .place ∨ g.kind? next = some .processing ∨
      g.kind? next = some .whenOtherwise := by
  obtain ⟨kind, hnextKind, haccepts⟩ := h.accepts hkind hnext
  rw [hnextKind]
  cases kind <;> revert haccepts <;> decide

/-- Steps that are all there, each once, stand in the one order the grammar allows. -/
theorem stepChain (h : g.Clean) {head : BlockId}
    (hhead : g.kind? head = some .pick ∨ g.kind? head = some .place)
    (hnodup : (g.stepKinds (g.leading head)).Nodup) (hpick : .pick ∈ g.stepKinds (g.leading head))
    (hplace : .place ∈ g.stepKinds (g.leading head)) : g.StepChain head := by
  rcases hhead with hhead | hhead
  · refine ⟨hhead, ?_⟩
    have hfirst : g.kind? head = some (.ofStep .pick) := hhead
    rw [h.stepKinds_leading hfirst] at hnodup hplace
    cases hnext : g.child? head .next with
    | none => simp [hnext] at hplace
    | some next =>
        rw [hnext] at hnodup hplace
        rcases h.kind_behind_pick hhead hnext with hkind | hkind
        · exact .inl ⟨next, rfl, hkind⟩
        · have hsecond : g.kind? next = some (.ofStep .processing) := hkind
          simp only [Option.map_some, Option.getD_some, h.stepKinds_leading hsecond] at hnodup hplace
          cases hthird : g.child? next .next with
          | none => simp [hthird] at hplace
          | some third =>
              rw [hthird] at hnodup hplace
              -- A second processing would be a step twice, a logic block would end the steps.
              rcases h.kind_behind_processing hkind hthird with hlast | hlast | hlast
              · exact .inr ⟨next, third, rfl, hkind, hthird, hlast⟩
              · have hlast : g.kind? third = some (.ofStep .processing) := hlast
                simp [h.stepKinds_leading hlast] at hnodup
              · simp [h.leading_of_logic hlast rfl, stepKinds] at hplace
  · -- Nothing follows a place, so the pick is missing.
    have hlast : g.kind? head = some (.ofStep .place) := hhead
    rw [h.stepKinds_leading hlast, h.next_of_place hhead] at hpick
    simp at hpick

/-- A branch that begins with a step begins with a pick or a place. -/
theorem head_of_accepts {kind below : BlockKind} {socket : SocketName}
    (hsocket : socket ∈ branchSockets kind)
    (haccepts : Grammar.standard.accepts kind socket below = true) (hsteps : below.isLogic = false) :
    below = .pick ∨ below = .place := by
  have hall : ∀ socket ∈ branchSockets kind, ∀ below ∈ Grammar.standard.accepted kind socket,
      below.isLogic = false → below = .pick ∨ below = .place := by
    cases kind <;> decide
  exact hall socket hsocket below (List.contains_iff_mem.mp haccepts) hsteps

/-- The branch in a socket of a logic block holds a chain of steps. -/
theorem exists_branch (h : g.Clean) {id : BlockId} {kind : BlockKind} (hkind : g.kind? id = some kind)
    {socket : SocketName} (hsocket : socket ∈ branchSockets kind) :
    ∃ head, g.child? id socket = some head ∧ g.StepChain head ∧ g.chain head = g.leading head := by
  obtain ⟨b, hb, rfl⟩ := Option.map_eq_some_iff.mp hkind
  have hnone := h.block hb
  unfold blockFindings checkBranch at hnone
  simp only [List.append_eq_nil_iff, List.flatMap_eq_nil_iff] at hnone
  obtain ⟨hfindings, hmissing⟩ := hnone.2 socket hsocket
  obtain ⟨⟨hnodup, -⟩, hlogic⟩ := branchFindings_eq_nil_iff.mp hfindings
  have hlogic := hlogic rfl
  -- Inside a block both ends of a movement are asked for, so the branch is not empty.
  obtain ⟨hpick, hplace⟩ := (missingSteps_eq_nil_iff.mp hmissing).resolve_left nofun
  cases hhead : g.child? id socket with
  | none =>
      rw [branch_of_empty hhead] at hpick
      cases hpick
  | some head =>
      rw [branch_of_child? hhead] at hpick hplace hnodup hlogic
      have hleading : g.leading head = g.chain head := by
        apply List.takeWhile_eq_self_iff.mpr
        intro other hother
        rw [hlogic other hother]
        rfl
      obtain ⟨below, hbelow, haccepts⟩ := h.accepts hkind hhead
      have hself : head ∈ g.chain head := by
        rw [h.forest.chain_eq (live_of_kind? hbelow)]
        exact List.mem_cons_self
      have hsteps : below.isLogic = false := by
        have := hlogic head hself
        rwa [isLogicBlock, hbelow] at this
      rw [← hleading] at hnodup hpick hplace
      refine ⟨head, rfl, h.stepChain ?_ hnodup hpick hplace, hleading.symm⟩
      rw [hbelow]
      exact (head_of_accepts hsocket haccepts hsteps).imp (congrArg some) (congrArg some)

end Clean

end TaskDiagram.Graph
