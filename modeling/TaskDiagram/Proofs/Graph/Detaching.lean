import TaskDiagram.Proofs.Graph.Linking

/-! # Detaching and linking

Taking a block out of its socket and putting it back undo each other. What was taken out can always
be put back: the grammar has accepted the link before, the socket is free again, and what held the
block is not below it. Both changes set the same two ends of a link, so one after the other comes
down to the later one, and all that is left of the earlier is the order of the roots.
-/

namespace TaskDiagram

namespace Sockets

variable {α : Type} (s : Sockets α) (socket : SocketName)

/-- Of two contents of a socket the later one holds. -/
theorem set_set (content content' : Option α) :
    (s.set content socket).set content' socket = s.set content' socket := by
  refine ext_get? fun other => ?_
  simp only [get?_set]
  split <;> rfl

theorem set_get? : s.set (s.get? socket) socket = s := by
  refine ext_get? fun other => ?_
  rw [get?_set]
  split
  next heq => rw [heq]
  next => rfl

end Sockets

namespace Graph

variable {g : Graph} {parent child : BlockId} {socket : SocketName}

/-! ## Both ends of a link -/

/-- Of two changes of the same link the later one holds. -/
theorem relink_relink (g : Graph) (parent : BlockId) (socket : SocketName) (child : BlockId)
    (content content' : Option BlockId) (place place' : Option (BlockId × SocketName))
    (roots roots' : List BlockId) :
    (g.relink parent socket child content place roots).relink parent socket child content' place'
      roots' = g.relink parent socket child content' place' roots' := by
  refine eq_of_block? (by simp only [grammar_relink]) (by simp only [nextId_relink])
    (fun id => ?_) rfl (by simp only [pinned_relink])
  simp only [block?_relink, Option.map_map]
  congr 1
  funext b
  dsimp only [Function.comp]
  congr 1
  · split
    next => exact b.inputs.set_set socket content content'
    next => rfl
  · split <;> rfl

/-- A link that is set to what it is leaves the blocks as they are. -/
theorem relink_self (hcontent : g.child? parent socket = content)
    (hplace : g.parent? child = place) (roots : List BlockId) :
    g.relink parent socket child content place roots = { g with roots := roots } := by
  refine eq_of_block? (grammar_relink ..) (nextId_relink ..) (fun id => ?_) rfl (pinned_relink ..)
  change (g.relink parent socket child content place roots).block? id = g.block? id
  rw [block?_relink]
  cases hb : g.block? id with
  | none => rfl
  | some b =>
      have hinputs :
          (if id = parent then b.inputs.set content socket else b.inputs) = b.inputs := by
        split
        next heq =>
          have hget : b.inputs.get? socket = content := by
            rw [← hcontent, child?, ← heq, hb, Option.bind_some]
          rw [← hget, b.inputs.set_get? socket]
        next => rfl
      have hparent : (if id = child then place else b.parent) = b.parent := by
        split
        next heq => rw [← hplace, parent?, ← heq, hb, Option.bind_some]
        next => rfl
      rw [Option.map_some, hinputs, hparent]

namespace IsForest

/-! ## Putting back what was taken out -/

/-- A block that was taken out of a socket fits there again: what is reached after a link has gone
was reached before, so what held the block is still not below it. -/
theorem pluggable_unplug (h : g.IsForest) (hplace : g.parent? child = some (parent, socket)) :
    (g.unplug parent socket child).Pluggable parent socket child := by
  have hlink : g.child? parent socket = some child := h.mirror.mp hplace
  refine ⟨?_, ?_, ?_, ?_⟩
  · simpa only [Graph.unplug, kind?_relink, grammar_relink] using h.accepted hlink
  · rw [parent?_unplug hplace, if_pos rfl]
  · rw [h.child?_unplug hplace, if_pos ⟨rfl, rfl⟩]
  · rw [(h.unplug hplace).apart_iff]
    intro hreach
    have hbefore : g.Reaches child parent := by
      refine Relation.ReflTransGen.mono (fun other below hlinks => ?_) _ _ hreach
      obtain ⟨place, hc⟩ := hlinks
      exact ⟨place, ((h.child?_unplug_eq_some hplace).mp hc).1⟩
    exact h.not_reaches_back ⟨socket, hlink⟩ hbefore

theorem plug_unplug (h : g.IsForest) (hplace : g.parent? child = some (parent, socket)) :
    (g.unplug parent socket child).plug parent socket child = g := by
  have hnot : child ∉ g.roots := by
    intro hroot
    rw [(h.mem_roots.mp hroot).2] at hplace
    cases hplace
  have hroots : (g.roots ++ [child]).filter (· != child) = g.roots := by
    rw [List.filter_append, List.filter_eq_self.mpr fun root hroot => ?_]
    · simp
    · rw [bne_iff_ne]
      exact fun heq => hnot (heq ▸ hroot)
  rw [Graph.plug, Graph.unplug, relink_relink, roots_relink, hroots,
    relink_self (h.mirror.mp hplace) hplace]

/-- Taking out what was just put in moves the block behind the other roots. -/
theorem unplug_plug (h : g.IsForest) (hplug : g.Pluggable parent socket child) :
    (g.plug parent socket child).unplug parent socket child =
      { g with roots := g.roots.erase child ++ [child] } := by
  rw [Graph.unplug, Graph.plug, relink_relink, roots_relink, ← h.roots_nodup.erase_eq_filter child,
    relink_self hplug.free hplug.loose]

end IsForest

/-- Every block that is no root can be taken out of its socket and put back, and then the diagram
is what it was, the order of its roots included. What was just put into a socket is taken out of
it again, and then it is the last root, and all else is as it was. -/
theorem detaching_and_linking_undo_each_other (grammar : Grammar) (edits : List GraphEdit) :
    let g := (empty grammar).run edits
    (∀ child, g.Live child → child ∉ g.roots → ∃ parent socket detached,
      g.disconnect child = .ok ((parent, socket), detached) ∧
        detached.connect parent socket child = .ok g) ∧
    ∀ parent socket child linked, g.connect parent socket child = .ok linked →
      linked.disconnect child =
        .ok ((parent, socket), { g with roots := g.roots.erase child ++ [child] }) := by
  intro g
  have h : g.IsForest := (isForest_empty grammar).run edits
  refine ⟨fun child hlive hnot => ?_, fun parent socket child linked hlinked => ?_⟩
  · cases hplace : g.parent? child with
    | none => exact absurd (h.mem_roots.mpr ⟨hlive, hplace⟩) hnot
    | some place =>
        obtain ⟨parent, socket⟩ := place
        refine ⟨parent, socket, _, disconnect_eq_ok_iff.mpr ⟨hplace, rfl⟩, ?_⟩
        exact connect_eq_ok_iff.mpr ⟨h.pluggable_unplug hplace, (h.plug_unplug hplace).symm⟩
  · obtain ⟨hplug, rfl⟩ := connect_eq_ok_iff.mp hlinked
    refine disconnect_eq_ok_iff.mpr ⟨?_, (h.unplug_plug hplug).symm⟩
    rw [hplug.parent?_plug, if_pos rfl]

/-- A place that is older than the pick it stands behind, taken out and put back. -/
theorem place_put_back :
    let g := (empty .standard).run [.insert .place, .insert .pick, .connect 1 .next 0]
    g.Live 0 ∧ 0 ∉ g.roots ∧ ∃ parent socket detached,
      g.disconnect 0 = .ok ((parent, socket), detached) ∧
        detached.connect parent socket 0 = .ok g := by
  intro g
  have hlive : g.Live 0 := show (g.block? 0).isSome from by decide
  have hnot : 0 ∉ g.roots := by decide
  obtain ⟨hback, -⟩ := detaching_and_linking_undo_each_other .standard
    [.insert .place, .insert .pick, .connect 1 .next 0]
  exact ⟨hlive, hnot, hback 0 hlive hnot⟩

end Graph

end TaskDiagram
