import TaskDiagram.Proofs.Graph.Loading.Anchors
import TaskDiagram.Proofs.Session.Mirror

/-! # Findings of a session

A session edits its diagram or takes another one in its place. Both leave every recorded finding
with the block it is about, so a session never warns about a block it no longer has.
-/

namespace TaskDiagram

/-- A call of a session that may change its diagram. -/
inductive SessionCall where
  | edit (e : SessionEdit)
  | load (p : Program)
  | loadWorkspace (w : Workspace)

/-- Every change that an event tells keeps the recorded findings anchored: of all of them only the
removal takes blocks away. -/
theorem Graph.Told.anchored {g g' : Graph} {e : GraphEvent} (h : g.Told e g') (hg : g.Anchored) :
    g'.Anchored := by
  cases h with
  | insert kind => exact hg.insert kind
  | plug parent socket child => exact hg.plug parent socket child
  | unplug parent socket child => exact hg.unplug parent socket child
  | erase id => exact (hg.loosen id).erase _
  | setField id => exact hg.modify id _

namespace EditSession

/-- The session after a call; a refused edit changes nothing. -/
def call (s : EditSession) : SessionCall → EditSession
  | .edit e => s.edit e
  | .load p => s.load p
  | .loadWorkspace w => s.loadWorkspace w

theorem anchored_edit {s : EditSession} (h : s.graph.Anchored) (e : SessionEdit) :
    (s.edit e).graph.Anchored := by
  obtain ⟨cause, hask, -⟩ | ⟨event, g, hask, htold, -⟩ := s.ask_spec e
  · rwa [edit_of_error hask]
  · rw [edit_of_ok hask]
    exact htold.anchored h

/-- After a load nothing is left of what was recorded before. -/
theorem anchored_call {s : EditSession} (h : s.graph.Anchored) (c : SessionCall) :
    (s.call c).graph.Anchored := by
  cases c with
  | edit e => exact anchored_edit h e
  | load p => exact Graph.anchored_ofProgram s.graph.grammar s.layout p
  | loadWorkspace w => exact Graph.anchored_ofWorkspace s.graph.grammar s.layout w

theorem anchored_calls {s : EditSession} (h : s.graph.Anchored) (calls : List SessionCall) :
    (calls.foldl call s).graph.Anchored := by
  induction calls generalizing s with
  | nil => exact h
  | cons c calls ih => exact ih (anchored_call h c)

/-- Whatever programs and workspaces a session is opened on or loads, and whatever edits are asked
of it before, in between and afterwards, each warning that belongs to a block belongs to one that
its diagram has at that moment. -/
theorem warnings_never_dangle (grammar : Grammar) (layout : Layout) (events : Bus)
    (calls : List SessionCall) (catalog : Option Catalog) :
    let s := calls.foldl call (new grammar layout events)
    ∀ w ∈ s.warnings catalog, ∀ id ∈ w.block, s.graph.Live id := by
  intro s
  have hanchored : s.graph.Anchored := anchored_calls (Graph.anchored_empty grammar) calls
  exact hanchored.validate catalog

/-- A session opened on a program is a new one that loads it. -/
example (grammar : Grammar) (layout : Layout) (events : Bus) (p : Program) :
    openProgram grammar layout events p = [.load p].foldl call (new grammar layout events) :=
  rfl

end EditSession

end TaskDiagram
