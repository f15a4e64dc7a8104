import TaskDiagram.Proofs.Graph.Anchors
import TaskDiagram.Proofs.Workspace.Frames

/-! # Loading records findings about its own blocks

Loading takes no block away, so a finding stays anchored if the block it is about is there when it
is recorded. Each part of loading is given some blocks and makes others. It names no blocks but
these, and that is all that its findings need.
-/

namespace TaskDiagram

/-- `g'` has the blocks of `g`, and its findings are anchored when those of `g` are. -/
structure Graph.Onward (g g' : Graph) : Prop where
  live : ∀ id, g.Live id → g'.Live id
  anchored : g.Anchored → g'.Anchored

namespace Graph.Onward

variable {g g' g'' : Graph}

theorem refl (g : Graph) : g.Onward g := ⟨fun _ h => h, fun h => h⟩

/-- Going onward twice is going onward. -/
theorem trans (h : g.Onward g') (h' : g'.Onward g'') : g.Onward g'' :=
  ⟨fun id hid => h'.live id (h.live id hid), fun hg => h'.anchored (h.anchored hg)⟩

/-- Changing one block takes no block away and records nothing. -/
theorem modify (g : Graph) (id : BlockId) (f : Block → Block) : g.Onward (g.modify id f) where
  live other hother := by simpa [Live, block?_modify] using hother
  anchored h := h.modify id f

end Graph.Onward

namespace Build

variable {α β : Type} {known : List BlockId} {id owner : BlockId} {made : α → List BlockId}

/-- Where the blocks `known` are there, the build goes onward, and the blocks of its outcome are
there. -/
def Anchors (known : List BlockId) (m : Build α) (made : α → List BlockId) : Prop :=
  ∀ g : Graph, (∀ id ∈ known, g.Live id) → g.Onward (m g).2 ∧ ∀ id ∈ made (m g).1, (m g).2.Live id

/-- The outcome names no blocks. -/
def nothing : α → List BlockId := fun _ => []

/-! ## Parts -/

theorem anchors_pure {a : α} (h : ∀ id ∈ made a, id ∈ known) : Anchors known (pure a) made :=
  fun g hknown => ⟨.refl g, fun id hid => hknown id (h id hid)⟩

/-- What one build makes is known to the next. -/
theorem anchors_bind {m : Build α} {f : α → Build β} {after : β → List BlockId}
    (hm : Anchors known m made) (hf : ∀ a, Anchors (made a ++ known) (f a) after) :
    Anchors known (m >>= f) after := by
  intro g hknown
  obtain ⟨honward, hmade⟩ := hm g hknown
  obtain ⟨honward', hafter⟩ := hf (m g).1 (m g).2 fun id hid => by
    rcases List.mem_append.mp hid with hid | hid
    · exact hmade id hid
    · exact honward.live id (hknown id hid)
  exact ⟨honward.trans honward', hafter⟩

/-- A build that names no blocks in its outcome. -/
theorem anchors_seq {m : Build α} {f : α → Build β} {after : β → List BlockId}
    (hm : Anchors known m nothing) (hf : ∀ a, Anchors known (f a) after) :
    Anchors known (m >>= f) after :=
  anchors_bind hm hf

theorem anchors_get : Anchors known (get : Build Graph) nothing :=
  fun g _ => ⟨.refl g, nofun⟩

/-- A new block is there from then on. -/
theorem anchors_insert (kind : BlockKind) : Anchors known (insert kind) ([·]) := by
  refine fun g _ => ⟨⟨fun other hother => ?_, fun h => h.insert kind⟩, fun id hid => ?_⟩
  · change (g.insert kind).Live other
    rw [Graph.Live, Graph.block?_insert]
    split
    · rfl
    · exact hother
  · obtain rfl : id = g.nextId := List.mem_singleton.mp hid
    change (g.insert kind).Live g.nextId
    rw [Graph.Live, Graph.block?_insert, if_pos rfl]
    rfl

/-- What is recorded must be about a block that is known. -/
theorem anchors_pin {w : Warning} (h : ∀ id ∈ w.block, id ∈ known) :
    Anchors known (pin w) nothing :=
  fun _ hknown =>
    ⟨⟨fun _ h => h, fun hg => hg.pin fun other hother => hknown other (h other hother)⟩, nofun⟩

theorem anchors_about {kind : WarningKind} (h : id ∈ known) :
    Anchors known (pin (.about id kind)) nothing :=
  anchors_pin fun _ hother => Option.some.inj hother ▸ h

/-- A link that is refused is reported only where both of its ends are there. -/
theorem anchors_link (parent : BlockId) (socket : SocketName) (child : BlockId) :
    Anchors known (link parent socket child) nothing := by
  intro g _
  refine ⟨?_, nofun⟩
  obtain ⟨-, hlink⟩ | ⟨_, _, -, hchild, -, hlink⟩ | ⟨-, hlink⟩ :=
    Graph.link_cases g parent socket child <;> rw [hlink]
  · refine ⟨fun other hother => ?_, fun hg => hg.plug parent socket child⟩
    simpa [Graph.live_iff_kind?, Graph.plug] using hother
  · have hlive := Graph.live_of_kind? hchild
    exact ⟨fun _ h => h, fun hg => hg.pin (Graph.anchored_about.mpr hlive)⟩
  · exact .refl g

/-- A value that is refused is reported at its block, which must be known. -/
theorem anchors_set (h : id ∈ known) (name : String) (value : FieldValue) :
    Anchors known (set id name value) nothing := by
  intro g hknown
  refine ⟨?_, nofun⟩
  obtain ⟨_, -, -, hset⟩ | ⟨_, -, hset⟩ := Graph.set_cases g id name value <;> rw [hset]
  · exact .modify g id _
  · exact ⟨fun _ h => h, fun hg => hg.pin (Graph.anchored_about.mpr (hknown id h))⟩

theorem anchors_clear (id : BlockId) (name : String) : Anchors known (clear id name) nothing := by
  intro g _
  refine ⟨?_, nofun⟩
  obtain ⟨-, hclear⟩ | ⟨-, hclear⟩ := Graph.clear_cases g id name <;> rw [hclear]
  · exact .modify g id _
  · exact .refl g

theorem anchors_forM {f : α → Build Unit} {l : List α} (hf : ∀ a ∈ l, Anchors known (f a) nothing) :
    Anchors known (l.forM f) nothing := by
  induction l with
  | nil => exact anchors_pure nofun
  | cons a rest ih =>
      exact anchors_seq (hf a List.mem_cons_self) fun _ =>
        ih fun b hb => hf b (List.mem_cons_of_mem _ hb)

/-- Knowing more blocks does no harm. -/
theorem Anchors.mono {known' : List BlockId} {m : Build α} (h : Anchors known m made)
    (hsub : known ⊆ known') : Anchors known' m made :=
  fun g hknown => h g fun id hid => hknown id (hsub hid)

/-- Each member of a list makes its block, and all of them are there in the end. -/
theorem anchors_mapM {f : α → Build BlockId} (hf : ∀ a, Anchors [] (f a) ([·])) (l : List α) :
    Anchors known (l.mapM f) fun ids => ids := by
  refine Anchors.mono ?_ (List.nil_subset known)
  induction l with
  | nil => exact anchors_pure nofun
  | cons a rest ih =>
      rw [List.mapM_cons]
      refine anchors_bind (hf a) fun first => ?_
      refine anchors_bind (ih.mono (List.nil_subset _)) fun others => ?_
      refine anchors_pure fun id hid => ?_
      have hid : id = first ∨ id ∈ others := List.mem_cons.mp hid
      simp [hid.symm]

/-! ## Steps -/

/-- A reference makes a library block, or none when it is blank. -/
theorem anchors_reference (kind : LibraryKind) (r : Reference) :
    Anchors known (reference kind r) Option.toList := by
  obtain ⟨name, item⟩ := r
  unfold reference
  split
  · exact anchors_pure nofun
  · refine anchors_bind (anchors_insert _) fun id => ?_
    have hid : id ∈ [id] ++ known := List.mem_cons_self
    have hdone : Anchors ([id] ++ known) (pure (some id)) Option.toList :=
      anchors_pure fun _ => List.mem_append_left known
    cases name <;> cases item <;> dsimp only
    · exact hdone
    · exact anchors_seq (anchors_set hid _ _) fun _ => hdone
    · exact anchors_seq (anchors_set hid _ _) fun _ => hdone
    · refine anchors_seq (anchors_set hid _ _) fun _ => ?_
      exact anchors_seq (anchors_set hid _ _) fun _ => hdone

theorem anchors_withReference (kind : BlockKind) (entity : LibraryKind) (r : Reference) :
    Anchors known (withReference kind entity r) ([·]) := by
  refine anchors_bind (anchors_insert kind) fun id => ?_
  refine anchors_bind (anchors_reference entity r) fun item => ?_
  have hdone : Anchors (item.toList ++ ([id] ++ known)) (pure id) ([·]) :=
    anchors_pure fun _ hother => List.mem_append_right _ (List.mem_append_left known hother)
  cases item with
  | none => exact hdone
  | some item => exact anchors_seq (anchors_link _ _ _) fun _ => hdone

/-- Links that are refused are reported at the blocks of the chain. -/
theorem anchors_linkChain (ids : List BlockId) : Anchors known (linkChain ids) nothing := by
  induction ids with
  | nil => exact anchors_pure nofun
  | cons first rest ih =>
      cases rest with
      | nil => exact anchors_pure nofun
      | cons second rest => exact anchors_seq (anchors_link _ _ _) fun _ => ih

/-- The chain of some steps is all that they make. -/
theorem anchors_steps (s : Steps) : Anchors known (steps s) fun ids => ids := by
  have hstep : ∀ entry : StepKind × Reference,
      Anchors [] (withReference (.ofStep entry.1) entry.1.entity entry.2) ([·]) :=
    fun _ => anchors_withReference _ _ _
  refine anchors_bind (anchors_mapM hstep s.toList) fun chain => ?_
  refine anchors_seq (anchors_linkChain chain) fun _ => ?_
  exact anchors_pure fun _ => List.mem_append_left _

theorem anchors_branch (owner : BlockId) (socket : SocketName) (s : Steps) :
    Anchors known (branch owner socket s) nothing := by
  refine anchors_bind (anchors_steps s) fun chain => ?_
  cases chain with
  | nil => exact anchors_pure nofun
  | cons head => exact anchors_link owner socket head

/-! ## Controls -/

/-- A count out of bounds is reported at the repetition. -/
theorem anchors_repeatCount (h : id ∈ known) (times : Option Int64) :
    Anchors known (repeatCount id times) nothing := by
  cases times with
  | none => exact anchors_clear id fieldTimes
  | some times =>
      refine anchors_seq anchors_get fun g => ?_
      dsimp only
      split
      · exact anchors_seq (anchors_about h) fun _ => anchors_set h _ _
      · exact anchors_set h _ _

/-- An event of unknown type is reported at the block it should guard. -/
theorem anchors_event (h : owner ∈ known) (e : Event) : Anchors known (event owner e) nothing := by
  obtain ⟨type, target⟩ := e
  unfold event
  cases type with
  | none => exact anchors_pure nofun
  | some type =>
      cases type with
      | other value => exact anchors_about h
      | sensor => exact anchors_bind (anchors_insert _) fun _ => anchors_link _ _ _
      | human => exact anchors_bind (anchors_insert _) fun _ => anchors_link _ _ _
      | findObject =>
          exact anchors_bind (anchors_withReference _ _ _) fun _ => anchors_link _ _ _

/-- A control of unknown type is reported at the head of the chain its steps make. -/
theorem anchors_bareChain (value : String) (c : Control) :
    Anchors known (bareChain value c) nothing := by
  refine anchors_bind (anchors_steps c.steps) fun chain => anchors_pin fun id hid => ?_
  exact List.mem_append_left known (List.mem_of_head? hid)

/-- All that is reported about a logic block and its branches is about blocks that are there. -/
theorem anchors_fillLogic (h : id ∈ known) (kind : BlockKind) (c : Control) :
    Anchors known (fillLogic id kind c) nothing := by
  have hbody : Anchors known (do branch id .body c.steps; pure ()) nothing :=
    anchors_seq (anchors_branch id .body c.steps) fun _ => anchors_pure nofun
  have hboth : ∀ s, Anchors known (do branch id .body c.steps; branch id .otherwise s) nothing :=
    fun s => anchors_seq (anchors_branch id .body c.steps) fun _ => anchors_branch id .otherwise s
  unfold fillLogic
  cases kind with
  | repeated => exact anchors_seq (anchors_repeatCount h c.times) fun _ => hbody
  | when =>
      cases c.event with
      | none => exact hbody
      | some e => exact anchors_seq (anchors_event h e) fun _ => hbody
  | whenOtherwise =>
      cases c.event with
      | none =>
          cases c.otherwise with
          | none => exact hbody
          | some s => exact hboth s
      | some e =>
          refine anchors_seq (anchors_event h e) fun _ => ?_
          cases c.otherwise with
          | none => exact hbody
          | some s => exact hboth s
  | _ => exact hbody

theorem anchors_follow (previous tail : Option BlockId) (id : BlockId) (kind : BlockKind) :
    Anchors known (follow previous tail id kind) nothing := by
  cases previous with
  | some previous => exact anchors_link previous .next id
  | none =>
      cases tail with
      | none => exact anchors_pure nofun
      | some tail =>
          refine anchors_seq anchors_get fun g => ?_
          split
          · split
            · exact anchors_link tail .next id
            · exact anchors_pure nofun
          · exact anchors_pure nofun

/-- What is reported along a chain of controls is anchored, by induction on the chain. -/
theorem anchors_controls (tail previous : Option BlockId) (cs : List Control) :
    Anchors known (controls tail previous cs) nothing := by
  induction cs generalizing known previous with
  | nil => exact anchors_pure nofun
  | cons c rest ih =>
      unfold controls
      split
      · dsimp only
        split
        · exact anchors_seq (anchors_bareChain "null" c) fun _ => ih previous
        · exact ih previous
      · split
        · exact anchors_seq (anchors_bareChain _ c) fun _ => ih previous
        · refine anchors_bind (anchors_insert _) fun id => ?_
          refine anchors_seq (anchors_fillLogic List.mem_cons_self _ c) fun _ => ?_
          exact anchors_seq (anchors_follow previous tail id _) fun _ => ih (some id)

/-- Whatever is reported while a program is loaded is about blocks that are there. -/
theorem anchors_program (p : Program) : Anchors [] (program p) nothing :=
  anchors_bind (anchors_steps p.steps) fun _ => anchors_controls _ _ _

/-! ## Nodes -/

/-- A field that is dropped is reported at its block. -/
theorem anchors_loadField (h : id ∈ known) (name : String) (value : FieldValue) :
    Anchors known (loadField id name value) nothing := by
  refine anchors_seq anchors_get fun g => ?_
  split
  · exact anchors_seq (anchors_about h) fun _ => anchors_set h _ _
  · exact anchors_set h _ _

theorem anchors_loadFields (h : id ∈ known) (fields : FieldMap) :
    Anchors known (loadFields id fields) nothing := by
  refine anchors_seq anchors_get fun g => ?_
  exact anchors_seq (anchors_forM fun entry _ => anchors_clear id entry.1) fun _ =>
    anchors_forM fun entry _ => anchors_loadField h entry.1 entry.2

mutual

/-- A tree is built from below, and each of its blocks is known before anything is said about it. -/
theorem anchors_sketch {known : List BlockId} : ∀ t : Tree, Anchors known (sketch t) ([·])
  | .node kind fields inputs =>
      anchors_bind (anchors_insert kind) fun id =>
        anchors_seq (anchors_loadFields List.mem_cons_self fields) fun _ =>
          anchors_seq (anchors_sketchInputs id inputs) fun _ =>
            anchors_pure fun _ => List.mem_append_left known

theorem anchors_sketchInputs {known : List BlockId} (owner : BlockId) :
    ∀ inputs : List (SocketName × Tree), Anchors known (sketchInputs owner inputs) nothing
  | [] => anchors_pure nofun
  | (socket, t) :: rest =>
      anchors_bind (anchors_sketch t) fun child =>
        anchors_seq (anchors_link owner socket child) fun _ => anchors_sketchInputs owner rest

end

theorem anchors_place (id : BlockId) (x y : Option Float) :
    Anchors known (place id x y) nothing := by
  intro g _
  refine ⟨?_, nofun⟩
  unfold place
  split
  · exact .modify g id _
  · exact .refl g

/-- Whatever is reported while a workspace is loaded is about blocks that are there. -/
theorem anchors_workspace (w : Workspace) : Anchors [] (workspace w) nothing := by
  refine anchors_forM fun root _ => ?_
  rw [node_eq_sketch]
  exact anchors_bind (anchors_sketch root.tree) fun id => anchors_place id root.x root.y

end Build

/-! ## Loaded diagrams -/

namespace Graph

theorem Onward.placeRoots (layout : Layout) (index : Nat) (roots : List BlockId) (g : Graph) :
    g.Onward (placeRoots layout index roots g) := by
  induction roots generalizing index g with
  | nil => exact .refl g
  | cons root rest ih => exact (Onward.modify g root _).trans (ih (index + 1) _)

theorem Onward.placeUnplaced (layout : Layout) (index : Nat) (roots : List BlockId) (g : Graph) :
    g.Onward (placeUnplaced layout index roots g) := by
  induction roots generalizing index g with
  | nil => exact .refl g
  | cons root rest ih => exact (Onward.modify g root _).trans (ih (index + 1) _)

/-- Under any grammar the findings of a loaded program are anchored. -/
theorem anchored_ofProgram (grammar : Grammar) (layout : Layout) (p : Program) :
    (ofProgram grammar layout p).Anchored :=
  have hbuilt := (Build.anchors_program p (empty grammar) nofun).1
  (hbuilt.trans (.placeRoots layout 0 _ _)).anchored (anchored_empty grammar)

/-- Under any grammar the findings of a loaded workspace are anchored. -/
theorem anchored_ofWorkspace (grammar : Grammar) (layout : Layout) (w : Workspace) :
    (ofWorkspace grammar layout w).Anchored :=
  have hbuilt := (Build.anchors_workspace w (empty grammar) nofun).1
  (hbuilt.trans (.placeUnplaced layout 0 _ _)).anchored (anchored_empty grammar)

end Graph

end TaskDiagram
