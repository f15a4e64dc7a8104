import TaskDiagram.Proofs.Graph.Edits
import TaskDiagram.Proofs.Session.Bus
import TaskDiagram.Session.Edit

/-! # Mirrors of an editing session

A mirror knows of a diagram what the events of its session tell. It checks nothing and walks
through nothing: it enters blocks and links, strikes them out, and overwrites fields. That is enough
to hold, after any number of edits, the blocks, fields and links of the diagram, for a refused edit
is not told and any other is told by one event.
-/

namespace TaskDiagram

/-- A block as a mirror holds it. -/
structure MirroredBlock where
  id : BlockId
  kind : BlockKind
  fields : FieldMap

/-- What one who follows a session knows of its diagram. -/
structure Mirror where
  blocks : List MirroredBlock
  links : List Link

namespace Mirror

def empty : Mirror := ⟨[], []⟩

/-- The mirror after an event. Of the grammar nothing is needed but what a new block holds; what a
diagram is like that took the place of another is not told. -/
def apply (grammar : Grammar) (m : Mirror) : GraphEvent → Mirror
  | .blockInserted id kind => { m with blocks := m.blocks ++ [⟨id, kind, grammar.defaults kind⟩] }
  | .connected parent socket child => { m with links := m.links ++ [⟨parent, socket, child⟩] }
  | .disconnected parent socket child => { m with links := m.links.erase ⟨parent, socket, child⟩ }
  | .subtreeRemoved gone =>
      { blocks := m.blocks.filter (!gone.contains ·.id)
        links := m.links.filter fun l => !gone.contains l.parent && !gone.contains l.child }
  | .fieldChanged id name value =>
      { m with blocks := m.blocks.map fun b =>
          if b.id = id then { b with fields := b.fields.insert name value } else b }
  | .reloaded _ => m

/-- The mirror after whatever a follower got. -/
def hear (grammar : Grammar) (m : Mirror) : Received → Mirror
  | .event e => m.apply grammar e
  | _ => m

end Mirror

/-! ## Edits and their events -/

/-- An edit that may be asked of a session. -/
inductive SessionEdit where
  | insert (kind : BlockKind)
  | connect (parent : BlockId) (socket : SocketName) (child : BlockId)
  | disconnect (child : BlockId)
  | remove (id : BlockId)
  | setField (id : BlockId) (name : String) (value : FieldValue)

/-- The edit of the diagram that an edit of its session is. -/
def SessionEdit.toGraphEdit : SessionEdit → GraphEdit
  | .insert kind => .insert kind
  | .connect parent socket child => .connect parent socket child
  | .disconnect child => .disconnect child
  | .remove id => .remove id
  | .setField id name value => .setField id name value

namespace Graph

variable {g g' : Graph}

/-- What an event tells: one change of the diagram. -/
inductive Told (g : Graph) : GraphEvent → Graph → Prop
  | insert (kind : BlockKind) : Told g (.blockInserted g.nextId kind) (g.insert kind)
  | plug (parent : BlockId) (socket : SocketName) (child : BlockId)
      (h : g.Pluggable parent socket child) :
      Told g (.connected parent socket child) (g.plug parent socket child)
  | unplug (parent : BlockId) (socket : SocketName) (child : BlockId)
      (h : g.parent? child = some (parent, socket)) :
      Told g (.disconnected parent socket child) (g.unplug parent socket child)
  | erase (id : BlockId) (h : g.Live id) :
      Told g (.subtreeRemoved ((g.loosen id).descendants id))
        ((g.loosen id).erase ((g.loosen id).descendants id))
  | setField (id : BlockId) (kind : BlockKind) (name : String) (value : FieldValue)
      (hkind : g.kind? id = some kind)
      (hvalue : g.grammar.checkField kind name value = .ok ()) :
      Told g (.fieldChanged id name value)
        (g.modify id fun b => { b with fields := b.fields.insert name value })

/-- Every change that an event tells is a step of edits. -/
theorem Told.step {e : GraphEvent} (h : g.Told e g') : g.Step g' := by
  cases h with
  | insert kind => exact .insert kind
  | plug parent socket child h => exact .plug parent socket child h
  | unplug parent socket child h => exact .unplug parent socket child h
  | erase id h => exact .erase id h
  | setField id kind name value hkind hvalue => exact .setField id kind name value hkind hvalue

/-- The blocks as a mirror holds them. -/
def mirrored (g : Graph) : List MirroredBlock := g.blocks.map fun (id, b) => ⟨id, b.kind, b.fields⟩

/-- The block under an id as a mirror holds it. -/
def mirrored? (g : Graph) (id : BlockId) : Option MirroredBlock :=
  (g.block? id).map fun b => ⟨id, b.kind, b.fields⟩

theorem mirrored_eq (g : Graph) : g.mirrored = (List.range g.nextId).filterMap g.mirrored? := by
  rw [mirrored, blocks_eq, List.map_filterMap]
  congr 1
  funext id
  rw [Option.map_map]
  rfl

/-! ## What changes do to the blocks of a mirror -/

/-- A new block comes last, with its default fields. -/
theorem mirrored_insert (g : Graph) (kind : BlockKind) :
    (g.insert kind).mirrored = g.mirrored ++ [⟨g.nextId, kind, g.grammar.defaults kind⟩] := by
  have hold : ∀ id ∈ List.range g.nextId, (g.insert kind).mirrored? id = g.mirrored? id := by
    intro id hid
    rw [mirrored?, block?_insert, if_neg (Nat.ne_of_lt (List.mem_range.mp hid))]
    rfl
  have hnew : (g.insert kind).mirrored? g.nextId =
      some ⟨g.nextId, kind, g.grammar.defaults kind⟩ := by
    rw [mirrored?, block?_insert, if_pos rfl]
    rfl
  rw [mirrored_eq, mirrored_eq, nextId_insert, List.range_succ, List.filterMap_append,
    List.filterMap_congr hold]
  simp [hnew]

/-- Links are not part of what a mirror holds of a block. -/
theorem mirrored_relink (g : Graph) (parent : BlockId) (socket : SocketName) (child : BlockId)
    (content : Option BlockId) (place : Option (BlockId × SocketName)) (roots : List BlockId) :
    (g.relink parent socket child content place roots).mirrored = g.mirrored := by
  rw [mirrored_eq, mirrored_eq, nextId_relink]
  congr 1
  funext id
  rw [mirrored?, block?_relink, Option.map_map]
  rfl

/-- Detaching a block changes nothing of what a mirror holds of blocks. -/
theorem mirrored_loosen (g : Graph) (id : BlockId) : (g.loosen id).mirrored = g.mirrored := by
  unfold loosen
  split
  · rfl
  · exact mirrored_relink ..

/-- The blocks that were removed are gone, and the others stay as they are. -/
theorem mirrored_erase (g : Graph) (gone : List BlockId) :
    (g.erase gone).mirrored = g.mirrored.filter (!gone.contains ·.id) := by
  have hnext : (g.erase gone).nextId = g.nextId := by simp [nextId, erase]
  rw [mirrored_eq, mirrored_eq, hnext, List.filter_filterMap]
  congr 1
  funext id
  rw [mirrored?, block?_erase, mirrored?]
  by_cases hid : id ∈ gone <;> cases g.block? id <;> simp [Option.filter, hid]

/-- A field that is set changes in its own block only. -/
theorem mirrored_setField (g : Graph) (id : BlockId) (name : String) (value : FieldValue) :
    (g.modify id fun b => { b with fields := b.fields.insert name value }).mirrored =
      g.mirrored.map fun b =>
        if b.id = id then { b with fields := b.fields.insert name value } else b := by
  rw [mirrored_eq, mirrored_eq, nextId_modify, List.map_filterMap]
  congr 1
  funext other
  rw [mirrored?, block?_modify, mirrored?, Option.map_map, Option.map_map]
  congr 1
  funext b
  by_cases hid : other = id <;> simp [hid]

end Graph

namespace Mirror

/-- The mirror holds the blocks of a diagram, each once and in their order, with their kinds and
fields, and its links, each once. -/
structure Shows (m : Mirror) (g : Graph) : Prop where
  blocks : m.blocks = g.mirrored
  links_nodup : m.links.Nodup
  mem_links : ∀ {parent socket child},
    ⟨parent, socket, child⟩ ∈ m.links ↔ g.child? parent socket = some child

namespace Shows

variable {m : Mirror} {g g' : Graph} {e : GraphEvent}

theorem empty (grammar : Grammar) : Mirror.empty.Shows (.empty grammar) where
  blocks := rfl
  links_nodup := List.nodup_nil
  mem_links := by simp [Mirror.empty, Graph.child?]

/-- A mirror goes along with every change whose event it hears. -/
theorem apply (h : m.Shows g) (hg : g.IsForest) (he : g.Told e g') :
    (m.apply g.grammar e).Shows g' := by
  cases he with
  | insert kind =>
      refine ⟨?_, h.links_nodup, ?_⟩
      · rw [Graph.mirrored_insert, ← h.blocks]
        rfl
      · intro parent socket child
        rw [Graph.child?_insert]
        exact h.mem_links
  | plug parent socket child hplug =>
      have hnew : (⟨parent, socket, child⟩ : Link) ∉ m.links := by
        rw [h.mem_links, hplug.free]
        exact nofun
      refine ⟨h.blocks.trans (g.mirrored_relink ..).symm, ?_, ?_⟩
      · simpa [Mirror.apply] using h.links_nodup.concat hnew
      · -- The socket was free, so it is in no link that was known before.
        intro other place below
        rw [hplug.child?_plug, Mirror.apply, List.mem_append, h.mem_links]
        by_cases hplace : other = parent ∧ place = socket
        · obtain ⟨rfl, rfl⟩ := hplace
          simp [hplug.free, eq_comm]
        · rw [if_neg hplace]
          simp only [List.mem_singleton, Link.mk.injEq, or_iff_left_iff_imp]
          exact fun ⟨ho, hp, _⟩ => absurd ⟨ho, hp⟩ hplace
  | unplug parent socket child hplace =>
      refine ⟨h.blocks.trans (g.mirrored_relink ..).symm, h.links_nodup.erase _, ?_⟩
      intro other place below
      rw [Mirror.apply, h.links_nodup.mem_erase_iff, h.mem_links, hg.child?_unplug_eq_some hplace,
        and_comm]
      -- A block is plugged in once, so no other link has this child.
      refine and_congr_right fun hlink => not_congr ?_
      constructor
      · exact fun heq => (Link.mk.inj heq).2.2
      · rintro rfl
        obtain ⟨rfl, rfl⟩ := Prod.mk.inj (Option.some.inj (hplace.symm.trans (hg.mirror.mpr hlink)))
        rfl
  | erase id hid =>
      refine ⟨?_, h.links_nodup.filter _, ?_⟩
      · rw [Graph.mirrored_erase, Graph.mirrored_loosen, ← h.blocks]
        rfl
      · intro parent socket child
        rw [hg.child?_erase_eq_some hid, Mirror.apply, List.mem_filter, h.mem_links]
        simp
  | setField id kind name value hkind hvalue =>
      refine ⟨?_, h.links_nodup, ?_⟩
      · rw [Graph.mirrored_setField, ← h.blocks]
        rfl
      · intro parent socket child
        have hchild := Graph.child?_modify (g := g) id
          (f := fun b => { b with fields := b.fields.insert name value }) (fun _ => rfl)
        rw [hchild]
        exact h.mem_links

end Shows

end Mirror

/-! ## Sessions and those who follow them -/

namespace EditSession

/-- What an edit makes of a session, unless it is refused. -/
def ask (s : EditSession) : SessionEdit → Except GraphError EditSession
  | .insert kind => .ok (s.insert kind)
  | .connect parent socket child => s.connect parent socket child
  | .disconnect child => s.disconnect child
  | .remove id => (s.remove id).map (·.2)
  | .setField id name value => s.setField id name value

/-- The session after an edit; a refused one changes nothing. -/
def edit (s : EditSession) (e : SessionEdit) : EditSession := (s.ask e).toOption.getD s

variable {s s' : EditSession} {e : SessionEdit}

/-- An edit is refused of a session when it is of its diagram. One that is carried out changes the
diagram alike, and publishes the event that tells the change. -/
theorem ask_spec (s : EditSession) (e : SessionEdit) :
    (∃ cause, s.ask e = .error cause ∧ s.graph.edit e.toGraphEdit = s.graph) ∨
      ∃ event g, s.ask e = .ok ({ s with graph := g }.publish event) ∧ s.graph.Told event g ∧
        s.graph.edit e.toGraphEdit = g := by
  cases e with
  | insert kind => exact .inr ⟨_, _, rfl, .insert kind, rfl⟩
  | connect parent socket child =>
      simp only [ask, connect, SessionEdit.toGraphEdit, Graph.edit]
      cases hg : s.graph.connect parent socket child with
      | error cause => exact .inl ⟨cause, rfl, rfl⟩
      | ok g =>
          obtain ⟨hplug, rfl⟩ := Graph.connect_eq_ok_iff.mp hg
          exact .inr ⟨_, _, rfl, .plug parent socket child hplug, rfl⟩
  | disconnect child =>
      simp only [ask, disconnect, SessionEdit.toGraphEdit, Graph.edit]
      cases hg : s.graph.disconnect child with
      | error cause => exact .inl ⟨cause, rfl, rfl⟩
      | ok result =>
          obtain ⟨⟨parent, socket⟩, g⟩ := result
          obtain ⟨hplace, rfl⟩ := Graph.disconnect_eq_ok_iff.mp hg
          exact .inr ⟨_, _, rfl, .unplug parent socket child hplace, rfl⟩
  | remove id =>
      simp only [ask, remove, SessionEdit.toGraphEdit, Graph.edit]
      cases hg : s.graph.remove id with
      | error cause => exact .inl ⟨cause, rfl, rfl⟩
      | ok result =>
          obtain ⟨gone, g⟩ := result
          obtain ⟨hid, rfl, rfl⟩ := Graph.remove_eq_ok_iff.mp hg
          exact .inr ⟨_, _, rfl, .erase id hid, rfl⟩
  | setField id name value =>
      simp only [ask, setField, SessionEdit.toGraphEdit, Graph.edit]
      cases hg : s.graph.setField id name value with
      | error cause => exact .inl ⟨cause, rfl, rfl⟩
      | ok g =>
          obtain ⟨⟨kind, hkind, hvalue⟩, rfl⟩ := Graph.setField_eq_ok_iff.mp hg
          exact .inr ⟨_, _, rfl, .setField id kind name value hkind hvalue, rfl⟩

theorem edit_of_error {cause : GraphError} (h : s.ask e = .error cause) : s.edit e = s := by
  rw [edit, h]
  rfl

theorem edit_of_ok (h : s.ask e = .ok s') : s.edit e = s' := by
  rw [edit, h]
  rfl

end EditSession

/-- A session, and what one who follows it knows of its diagram. -/
structure Following where
  session : EditSession
  mirror : Mirror

namespace Following

/-- The follower of a new session who subscribed to an unused bus. -/
def new (grammar : Grammar) (layout : Layout) (capacity : Nat) : Following :=
  ⟨.new grammar layout (Bus.new capacity).subscribe, .empty⟩

/-- An edit is asked of the session, and the follower takes in whatever it gets of it. -/
def next (f : Following) (e : SessionEdit) : Following :=
  let s := f.session.edit e
  let (received, events) := s.events.drain 0
  ⟨{ s with events }, received.foldl (Mirror.hear s.graph.grammar) f.mirror⟩

/-- The follower has had every event, and its mirror shows the diagram. -/
structure Abreast (f : Following) : Prop where
  forest : f.session.graph.IsForest
  events : f.session.events.UpToDate 0
  shows : f.mirror.Shows f.session.graph

theorem abreast_new (grammar : Grammar) (layout : Layout) (capacity : Nat) :
    (new grammar layout capacity).Abreast where
  forest := Graph.isForest_empty grammar
  events := Bus.upToDate_subscribe_new capacity
  shows := .empty grammar

namespace Abreast

variable {f : Following} {e : SessionEdit}

/-- Of an edit that is refused the follower gets nothing. -/
theorem next_of_error (h : f.Abreast) {cause : GraphError} (hask : f.session.ask e = .error cause) :
    ((f.session.edit e).events.drain 0).1 = [] ∧ f.next e = f := by
  rw [Following.next, EditSession.edit_of_error hask, h.events.drain_eq]
  exact ⟨rfl, rfl⟩

/-- Of an edit that is carried out the follower gets one event, and its mirror goes along. -/
theorem next_of_ok (h : f.Abreast) {s : EditSession} (hask : f.session.ask e = .ok s) :
    ∃ event, (s.events.drain 0).1 = [.event event] ∧
      s.graph = f.session.graph.edit e.toGraphEdit ∧
      (f.mirror.apply s.graph.grammar event).Shows s.graph ∧
      (f.next e).session.graph = s.graph ∧ (f.next e).Abreast := by
  obtain ⟨cause, herror, -⟩ | ⟨event, g, hok, htold, hg⟩ := f.session.ask_spec e
  · cases herror.symm.trans hask
  obtain rfl : _ = s := Except.ok.inj (hok.symm.trans hask)
  obtain ⟨after, hdrain, hafter⟩ := h.events.drain_publish event
  have hshows : (f.mirror.apply g.grammar event).Shows g := by
    rw [Graph.grammar_step htold.step]
    exact h.shows.apply h.forest htold
  have hnext : f.next e =
      ⟨{ f.session with graph := g, events := after }, f.mirror.apply g.grammar event⟩ := by
    rw [Following.next, EditSession.edit_of_ok hask]
    dsimp only [EditSession.publish]
    rw [hdrain]
    rfl
  refine ⟨event, ?_, hg.symm, hshows, ?_⟩
  · dsimp only [EditSession.publish]
    rw [hdrain]
  · rw [hnext]
    exact ⟨rfl, h.forest.step htold.step, hafter, hshows⟩

/-- The follower stays abreast of the session, whether the edit is refused or carried out. -/
theorem next (h : f.Abreast) (e : SessionEdit) :
    (f.next e).Abreast ∧ (f.next e).session.graph = f.session.graph.edit e.toGraphEdit := by
  obtain ⟨cause, hask, hsame⟩ | ⟨event, g, hask, -⟩ := f.session.ask_spec e
  · rw [(h.next_of_error hask).2, hsame]
    exact ⟨h, rfl⟩
  · obtain ⟨-, -, hedit, -, hgraph, hnext⟩ := h.next_of_ok hask
    exact ⟨hnext, hgraph.trans hedit⟩

/-- The follower stays abreast of the session along any edits. -/
theorem run (h : f.Abreast) (edits : List SessionEdit) :
    (edits.foldl Following.next f).Abreast ∧
      (edits.foldl Following.next f).session.graph =
        f.session.graph.run (edits.map SessionEdit.toGraphEdit) := by
  induction edits generalizing f with
  | nil => exact ⟨h, rfl⟩
  | cons e edits ih =>
      obtain ⟨hnext, hgraph⟩ := h.next e
      have hrest := ih hnext
      rw [hgraph] at hrest
      exact hrest

end Abreast

end Following

/-- Whatever edits are asked of a new session, its diagram is the one they lead to, and the mirror
of one who follows it shows the diagram after each: a refused edit tells nothing and changes
nothing, and any other tells one event, by which the mirror comes to show the changed diagram. -/
theorem EditSession.events_tell_every_change (grammar : Grammar) (layout : Layout)
    (capacity : Nat) (edits : List SessionEdit) :
    let now := edits.foldl Following.next (.new grammar layout capacity)
    now.session.graph = (Graph.empty grammar).run (edits.map SessionEdit.toGraphEdit) ∧
      now.mirror.Shows now.session.graph ∧
      ∀ e, match now.session.ask e with
        | .error _ => ((now.session.edit e).events.drain 0).1 = [] ∧
            (now.session.edit e).graph = now.session.graph
        | .ok after => ∃ event, (after.events.drain 0).1 = [.event event] ∧
            (now.mirror.apply grammar event).Shows after.graph := by
  intro now
  obtain ⟨hnow, hgraph⟩ := (Following.abreast_new grammar layout capacity).run edits
  refine ⟨hgraph, hnow.shows, fun e => ?_⟩
  split
  next cause hask =>
    exact ⟨(hnow.next_of_error hask).1, congrArg graph (edit_of_error hask)⟩
  next after hask =>
    obtain ⟨event, hevent, hedit, hshows, -⟩ := hnow.next_of_ok hask
    have hgrammar : after.graph.grammar = grammar := by
      rw [hedit, Graph.grammar_step (Graph.step_edit _ _)]
      exact (congrArg Graph.grammar hgraph).trans (Graph.grammar_run _ _)
    exact ⟨event, hevent, hgrammar ▸ hshows⟩

end TaskDiagram
