import TaskDiagram.Graph.OfProgram
import TaskDiagram.Proofs.Graph.Edited

/-! # Loading is editing

All that loading a program does to a new diagram could be asked of it as edits, under
any grammar. So what holds of every diagram that edits lead to holds of loaded ones.
-/

namespace TaskDiagram

theorem Graph.run_append (g : Graph) (first second : List GraphEdit) :
    g.run (first ++ second) = (g.run first).run second := List.foldl_append

namespace Build

variable {α β : Type}

/-- A build changes any diagram as some edits do. -/
def Edits (m : Build α) : Prop := ∀ g : Graph, ∃ edits, (m g).2 = g.run edits

/-! ## Parts -/

theorem edits_pure (a : α) : Edits (pure a) := fun _ => ⟨[], rfl⟩

/-- Two builds in sequence are edits when each of them is. -/
theorem edits_bind {m : Build α} {f : α → Build β} (hm : Edits m) (hf : ∀ a, Edits (f a)) :
    Edits (m >>= f) := by
  intro g
  obtain ⟨first, hfirst⟩ := hm g
  obtain ⟨second, hsecond⟩ := hf (m g).1 (m g).2
  refine ⟨first ++ second, ?_⟩
  rw [Graph.run_append, ← hfirst, ← hsecond]
  rfl

theorem edits_insert (kind : BlockKind) : Edits (insert kind) := fun _ => ⟨[.insert kind], rfl⟩

theorem edits_pin (w : Warning) : Edits (pin w) := fun _ => ⟨[.pin w], rfl⟩

/-- A link is one edit, whether it is made or its refusal is recorded. -/
theorem edits_link (parent : BlockId) (socket : SocketName) (child : BlockId) :
    Edits (link parent socket child) := by
  intro g
  obtain ⟨hplug, hlink⟩ | ⟨_, _, -, -, -, hlink⟩ | ⟨-, hlink⟩ :=
    Graph.link_cases g parent socket child <;> rw [hlink]
  · refine ⟨[.connect parent socket child], ?_⟩
    have hconnect := Graph.connect_eq_ok_iff.mpr ⟨hplug, rfl⟩
    simp [Graph.run, Graph.edit, hconnect, Except.toOption]
  · exact ⟨[.pin _], rfl⟩
  · exact ⟨[], rfl⟩

/-- Setting a field is one edit, whether the value is taken or its refusal is recorded. -/
theorem edits_set (id : BlockId) (name : String) (value : FieldValue) :
    Edits (set id name value) := by
  intro g
  unfold set
  cases hset : g.setField id name value with
  | ok changed =>
      refine ⟨[.setField id name value], ?_⟩
      simp [Graph.run, Graph.edit, hset, Except.toOption]
  | error => exact ⟨[.pin _], rfl⟩

theorem edits_clear (id : BlockId) (name : String) : Edits (clear id name) := by
  intro g
  refine ⟨[.clearField id name], ?_⟩
  unfold clear
  cases hclear : g.clearField id name <;> simp [Graph.run, Graph.edit, hclear, Except.toOption]

/-! ## Steps -/

/-- A reference is an inserted block and at most two fields, and a blank one is nothing. -/
theorem edits_reference (kind : LibraryKind) (r : Reference) : Edits (reference kind r) := by
  obtain ⟨name, id⟩ := r
  unfold reference
  split
  · exact edits_pure none
  · refine edits_bind (edits_insert _) fun block => ?_
    cases name <;> cases id <;> dsimp only
    · exact edits_pure _
    · exact edits_bind (edits_set _ _ _) fun _ => edits_pure _
    · exact edits_bind (edits_set _ _ _) fun _ => edits_pure _
    · exact edits_bind (edits_set _ _ _) fun _ => edits_bind (edits_set _ _ _) fun _ => edits_pure _

/-- A block with a reference is two inserted blocks and their link. -/
theorem edits_withReference (kind : BlockKind) (entity : LibraryKind) (r : Reference) :
    Edits (withReference kind entity r) := by
  refine edits_bind (edits_insert kind) fun block => ?_
  refine edits_bind (edits_reference entity r) fun item => ?_
  cases item with
  | none => exact edits_pure block
  | some item => exact edits_bind (edits_link _ _ _) fun _ => edits_pure block

theorem edits_mapM {f : α → Build β} (hf : ∀ a, Edits (f a)) (l : List α) : Edits (l.mapM f) := by
  induction l with
  | nil => exact edits_pure []
  | cons a rest ih =>
      rw [List.mapM_cons]
      exact edits_bind (hf a) fun _ => edits_bind ih fun _ => edits_pure _

/-- Linking blocks one behind the other is an edit for each link. -/
theorem edits_linkChain (ids : List BlockId) : Edits (linkChain ids) := by
  induction ids with
  | nil => exact edits_pure ()
  | cons first rest ih =>
      cases rest with
      | nil => exact edits_pure ()
      | cons second rest => exact edits_bind (edits_link _ _ _) fun _ => ih

/-- The steps of a program or of a branch are built by edits. -/
theorem edits_steps (s : Steps) : Edits (steps s) := by
  have hstep := fun entry : StepKind × Reference =>
    edits_withReference (.ofStep entry.1) entry.1.entity entry.2
  have hsteps := edits_mapM hstep s.toList
  exact edits_bind hsteps fun chain => edits_bind (edits_linkChain chain) fun _ => edits_pure chain

theorem edits_branch (owner : BlockId) (socket : SocketName) (s : Steps) :
    Edits (branch owner socket s) := by
  refine edits_bind (edits_steps s) fun chain => ?_
  cases chain with
  | nil => exact edits_pure ()
  | cons head => exact edits_link owner socket head

/-! ## Controls -/

/-- A count is set or cleared by an edit; one that was out of bounds is recorded before. -/
theorem edits_repeatCount (id : BlockId) (times : Option Int64) :
    Edits (repeatCount id times) := by
  cases times with
  | none => exact edits_clear id fieldTimes
  | some times =>
      refine edits_bind (fun g => ⟨[], rfl⟩) fun g => ?_
      dsimp only
      split
      · exact edits_bind (edits_pin _) fun _ => edits_set _ _ _
      · exact edits_set _ _ _

/-- An event is plugged in by edits, and one of unknown type is only recorded. -/
theorem edits_event (owner : BlockId) (e : Event) : Edits (event owner e) := by
  obtain ⟨type, target⟩ := e
  unfold event
  cases type with
  | none => exact edits_pure ()
  | some type =>
      cases type with
      | other value => exact edits_pin _
      | sensor => exact edits_bind (edits_insert _) fun _ => edits_link _ _ _
      | human => exact edits_bind (edits_insert _) fun _ => edits_link _ _ _
      | findObject => exact edits_bind (edits_withReference _ _ _) fun _ => edits_link _ _ _

theorem edits_bareChain (value : String) (c : Control) : Edits (bareChain value c) :=
  edits_bind (edits_steps c.steps) fun _ => edits_pin _

/-- What is plugged into a logic block is built by edits, whatever its kind. -/
theorem edits_fillLogic (id : BlockId) (kind : BlockKind) (c : Control) :
    Edits (fillLogic id kind c) := by
  have hbody : Edits (do branch id .body c.steps; pure ()) :=
    edits_bind (edits_branch id .body c.steps) fun _ => edits_pure ()
  have hboth := fun s => edits_bind (edits_branch id .body c.steps) fun _ =>
    edits_branch id .otherwise s
  unfold fillLogic
  cases kind with
  | repeated => exact edits_bind (edits_repeatCount id c.times) fun _ => hbody
  | when =>
      cases c.event with
      | none => exact hbody
      | some e => exact edits_bind (edits_event id e) fun _ => hbody
  | whenOtherwise =>
      cases c.event with
      | none =>
          cases c.otherwise with
          | none => exact hbody
          | some s => exact hboth s
      | some e =>
          refine edits_bind (edits_event id e) fun _ => ?_
          cases c.otherwise with
          | none => exact hbody
          | some s => exact hboth s
  | _ => exact hbody

/-- Where a logic block goes is looked up without a change, so only the link is an edit. -/
theorem edits_follow (previous tail : Option BlockId) (id : BlockId) (kind : BlockKind) :
    Edits (follow previous tail id kind) := by
  cases previous with
  | some previous => exact edits_link previous .next id
  | none =>
      cases tail with
      | none => exact edits_pure ()
      | some tail =>
          refine edits_bind (fun g => ⟨[], rfl⟩) fun g => ?_
          split
          · split
            · exact edits_link tail .next id
            · exact edits_pure ()
          · exact edits_pure ()

/-- All controls are built by edits, behind any block or behind none. -/
theorem edits_controls (tail previous : Option BlockId) (cs : List Control) :
    Edits (controls tail previous cs) := by
  induction cs generalizing previous with
  | nil => exact edits_pure ()
  | cons c rest ih =>
      unfold controls
      split
      · dsimp only
        split
        · exact edits_bind (edits_bareChain "null" c) fun _ => ih previous
        · exact ih previous
      · split
        · exact edits_bind (edits_bareChain _ c) fun _ => ih previous
        · refine edits_bind (edits_insert _) fun id => ?_
          refine edits_bind (edits_fillLogic id _ c) fun _ => ?_
          exact edits_bind (edits_follow previous tail id _) fun _ => ih (some id)

/-- Loading a program is edits, but for the places of the roots. -/
theorem edits_program (p : Program) : Edits (program p) :=
  edits_bind (edits_steps p.steps) fun _ => edits_controls _ _ _

end Build

namespace Graph

/-- Placing the roots is an edit for each of them. -/
theorem exists_placeRoots (layout : Layout) (index : Nat) (roots : List BlockId) (g : Graph) :
    ∃ edits, placeRoots layout index roots g = g.run edits := by
  induction roots generalizing index g with
  | nil => exact ⟨[], rfl⟩
  | cons root rest ih =>
      have hplaced : g.modify root (fun b => { b with position := some (layout.position index) }) =
          g.edit (.setPosition root (layout.position index)) := by
        simp only [edit, setPosition, require]
        cases hb : g.block? root with
        | none => simp [modify, hb, bind, Except.bind, Except.toOption]
        | some b => simp [bind, Except.bind, pure, Except.pure, Except.toOption]
      obtain ⟨edits, hedits⟩ := ih (index + 1) (g.edit (.setPosition root (layout.position index)))
      refine ⟨.setPosition root (layout.position index) :: edits, ?_⟩
      rw [placeRoots, hplaced, hedits]
      rfl

/-- Every loaded diagram could have been made by edits. -/
theorem exists_edits_ofProgram (grammar : Grammar) (layout : Layout) (p : Program) :
    ∃ edits, ofProgram grammar layout p = (empty grammar).run edits := by
  obtain ⟨first, hfirst⟩ := Build.edits_program p (empty grammar)
  obtain ⟨second, hsecond⟩ := exists_placeRoots layout 0 ((empty grammar).run first).roots
    ((empty grammar).run first)
  refine ⟨first ++ second, ?_⟩
  rw [run_append, ← hsecond, ← hfirst]
  rfl

/-- Loaded diagrams are among those that edits under the standard grammar lead to. -/
theorem edited_ofProgram (layout : Layout) (p : Program) :
    (ofProgram .standard layout p).Edited := by
  obtain ⟨edits, hedits⟩ := exists_edits_ofProgram .standard layout p
  exact hedits ▸ edited_run edits

end Graph

end TaskDiagram
