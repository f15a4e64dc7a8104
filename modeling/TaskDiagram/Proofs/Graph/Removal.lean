import TaskDiagram.Proofs.Graph.Subtrees

/-! # Removals

A block is first taken out of its socket and then goes with its subtree. Taking it out changes no
link below it, so what goes is the subtree that the block had before, in preorder. Apart from the
socket that held the block, whatever stays is as it was.
-/

namespace TaskDiagram.Graph

variable {g : Graph} {id parent child other : BlockId} {socket : SocketName}

/-! ## Taking a block out of its socket -/

@[simp]
theorem nextId_loosen (g : Graph) (id : BlockId) : (g.loosen id).nextId = g.nextId := by
  unfold loosen
  split
  next => rfl
  next => exact nextId_relink ..

@[simp]
theorem pinned_loosen (g : Graph) (id : BlockId) : (g.loosen id).pinned = g.pinned := by
  unfold loosen
  split
  next => rfl
  next => exact pinned_relink ..

/-- The other roots keep their order. -/
theorem roots_loosen (g : Graph) (id : BlockId) :
    (g.loosen id).roots = g.roots ∨ (g.loosen id).roots = g.roots ++ [id] := by
  unfold loosen
  split
  next => exact .inl rfl
  next => exact .inr (roots_relink ..)

/-- A block that is neither loosened nor holds what is loosened stays as it was. -/
theorem block?_loosen_of_apart (hne : other ≠ id)
    (hapart : ∀ socket, g.parent? id ≠ some (other, socket)) :
    (g.loosen id).block? other = g.block? other := by
  unfold loosen
  split
  next => rfl
  next parent socket hplace =>
    have hparent : other ≠ parent := fun heq => hapart socket (heq ▸ hplace)
    rw [unplug, block?_relink]
    simp [hne, hparent]

/-- What held the loosened block has one socket empty and is otherwise as it was. -/
theorem block?_loosen_parent (hne : parent ≠ id) (hplace : g.parent? id = some (parent, socket)) :
    (g.loosen id).block? parent =
      (g.block? parent).map fun b => { b with inputs := b.inputs.set none socket } := by
  have hloosen : g.loosen id = g.unplug parent socket id := by rw [loosen, hplace]
  rw [hloosen, unplug, block?_relink]
  simp [hne]

/-- The subtree of a block does not depend on the socket the block is in: the link that is dropped
starts above it. -/
theorem IsForest.descendants_loosen (h : g.IsForest) :
    (g.loosen id).descendants id = g.descendants id := by
  rw [descendants, descendants, nextId_loosen]
  refine below_congr (fun _ => live_loosen_iff) fun below hreach => ?_
  refine List.filterMap_congr fun place _ => Option.ext fun child => ?_
  rw [h.child?_loosen_eq_some, and_iff_left_iff_imp]
  rintro hlink rfl
  exact h.not_reaches_back ⟨place, hlink⟩ hreach

/-! ## What a removal takes and leaves -/

theorem roots_erase (g : Graph) (gone : List BlockId) :
    (g.erase gone).roots = g.roots.filter (· ∉ gone) := by
  simp [erase]

theorem pinned_erase (g : Graph) (gone : List BlockId) :
    (g.erase gone).pinned = g.pinned.filter fun w => ∀ other ∈ w.block, other ∉ gone := by
  refine List.filter_congr fun w _ => ?_
  cases w.block <;> simp

/-- `g'` is `g` without the subtree of a block, `gone`, and nothing else is different. -/
structure Removed (g g' : Graph) (id : BlockId) (gone : List BlockId) : Prop where
  grammar : g'.grammar = g.grammar
  nextId : g'.nextId = g.nextId
  nodup : gone.Nodup
  preorder : gone = g.descendants id
  mem_iff : ∀ other, other ∈ gone ↔ ∃ n, g.climb n other = some id
  dead : ∀ other ∈ gone, ¬ g'.Live other
  /-- The former parent of the block stays, with one socket empty. -/
  former : ∀ parent socket, g.parent? id = some (parent, socket) → parent ∉ gone ∧
    g'.block? parent =
      (g.block? parent).map fun b => { b with inputs := b.inputs.set none socket }
  others : ∀ other, other ∉ gone → (∀ socket, g.parent? id ≠ some (other, socket)) →
    g'.block? other = g.block? other
  links : ∀ parent socket child, g'.child? parent socket = some child ↔
    g.child? parent socket = some child ∧ parent ∉ gone ∧ child ∉ gone
  parents : ∀ parent socket child, g'.parent? child = some (parent, socket) ↔
    g.parent? child = some (parent, socket) ∧ parent ∉ gone ∧ child ∉ gone
  roots : g'.roots = g.roots.filter (· ∉ gone)
  pinned : g'.pinned = g.pinned.filter fun w => ∀ other ∈ w.block, other ∉ gone

theorem IsForest.removed_erase (h : g.IsForest) (hid : g.Live id) :
    g.Removed ((g.loosen id).erase ((g.loosen id).descendants id)) id (g.descendants id) := by
  have hforest := h.step (.erase id hid)
  have hlinks := @IsForest.child?_erase_eq_some g id
  rw [h.descendants_loosen] at hforest hlinks ⊢
  have hself : id ∈ g.descendants id := (h.mem_descendants hid).mpr ⟨0, rfl⟩
  exact {
    grammar := grammar_loosen g id
    nextId := by simpa [Graph.nextId, Graph.erase] using nextId_loosen g id
    nodup := h.descendants_nodup hid
    preorder := rfl
    mem_iff := fun _ => h.mem_descendants hid
    dead := fun other hgone => by simp [Live, block?_erase, hgone]
    former := by
      intro parent socket hplace
      have hkept : parent ∉ g.descendants id := by
        rw [h.mem_descendants_iff_reaches hid]
        exact h.not_reaches_back ⟨socket, h.mirror.mp hplace⟩
      have hne : parent ≠ id := fun heq => hkept (heq ▸ hself)
      exact ⟨hkept, by rw [block?_erase, if_neg hkept, block?_loosen_parent hne hplace]⟩
    others := by
      intro other hkept hapart
      have hne : other ≠ id := fun heq => hkept (heq ▸ hself)
      rw [block?_erase, if_neg hkept, block?_loosen_of_apart hne hapart]
    links := fun _ _ _ => hlinks h hid
    parents := by
      intro parent socket child
      rw [hforest.mirror, hlinks h hid, h.mirror]
    roots := by
      rw [roots_erase]
      -- If the block became a root when it was loosened, it goes again with its subtree.
      rcases g.roots_loosen id with heq | heq
      · rw [heq]
      · simp [heq, hself]
    pinned := by rw [pinned_erase, pinned_loosen] }

/-- A removal fails for a block that is not there, and then changes nothing. It succeeds for every
block that is there: it takes the blocks from which the way up leads to it, each once, a block
before what is plugged into it and sockets in their order. No root, link or finding mentions them
afterwards, the socket that held the block is empty, and all else is as it was. -/
theorem remove_takes_one_subtree (grammar : Grammar) (edits : List GraphEdit) (id : BlockId) :
    let g := (empty grammar).run edits
    (∀ other, g.Live other →
      g.descendants other = other :: (g.children other).flatMap g.descendants) ∧
    match g.remove id with
    | .ok (gone, g') => g.Live id ∧ g.Removed g' id gone
    | .error cause => ¬ g.Live id ∧ cause = .unknownBlock id ∧ g.edit (.remove id) = g := by
  intro g
  have h : g.IsForest := (isForest_empty grammar).run edits
  refine ⟨fun _ => h.descendants_eq, ?_⟩
  split
  next gone g' hok =>
    obtain ⟨hid, rfl, rfl⟩ := remove_eq_ok_iff.mp hok
    refine ⟨hid, ?_⟩
    have hremoved := h.removed_erase hid
    rwa [h.descendants_loosen] at hremoved ⊢
  next cause herror =>
    have hid : ¬ g.Live id := by
      intro hid
      rw [remove_eq_ok_iff.mpr ⟨hid, rfl, rfl⟩] at herror
      cases herror
    have hb : g.block? id = none := by simpa [Live] using hid
    refine ⟨hid, ?_, ?_⟩
    · rw [remove, require, hb] at herror
      exact (Except.error.inj herror).symm
    · rw [edit, herror]
      rfl

end TaskDiagram.Graph
