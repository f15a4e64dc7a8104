import TaskDiagram.Proofs.Graph.Walks

/-! # Every edit keeps the forest

Each change of a diagram is shown to keep the invariant on its own; runs of edits of
any length then keep it as well. A refused edit leaves the diagram as it was, so runs
may contain refused edits at any place. Nothing here depends on the grammar.
-/

namespace TaskDiagram

/-- A change that may be asked of a diagram. -/
inductive GraphEdit where
  | insert (kind : BlockKind)
  | setField (id : BlockId) (name : String) (value : FieldValue)
  | clearField (id : BlockId) (name : String)
  | setPosition (id : BlockId) (position : Position)
  | connect (parent : BlockId) (socket : SocketName) (child : BlockId)
  | disconnect (child : BlockId)
  | remove (id : BlockId)
  | pin (warning : Warning)

namespace Graph

/-- The diagram after an edit; a refused one changes nothing. -/
def edit (g : Graph) : GraphEdit → Graph
  | .insert kind => g.insert kind
  | .setField id name value => (g.setField id name value).toOption.getD g
  | .clearField id name => ((g.clearField id name).toOption.map (·.2)).getD g
  | .setPosition id position => (g.setPosition id position).toOption.getD g
  | .connect parent socket child => (g.connect parent socket child).toOption.getD g
  | .disconnect child => ((g.disconnect child).toOption.map (·.2)).getD g
  | .remove id => ((g.remove id).toOption.map (·.2)).getD g
  | .pin warning => g.pin warning

/-- The diagram after edits in sequence. -/
def run (g : Graph) (edits : List GraphEdit) : Graph := edits.foldl edit g

variable {g g' : Graph} {id parent child : BlockId} {socket : SocketName}

/-- What an edit can do: it changes nothing, adds a block, changes a block in what is no link,
sets or drops a link, removes a block with all below it, or records a finding. -/
inductive Step (g : Graph) : Graph → Prop
  | same : Step g g
  | insert (kind : BlockKind) : Step g (g.insert kind)
  | setField (id : BlockId) (kind : BlockKind) (name : String) (value : FieldValue)
      (hkind : g.kind? id = some kind)
      (hvalue : g.grammar.checkField kind name value = .ok ()) :
      Step g (g.modify id fun b => { b with fields := b.fields.insert name value })
  | clearField (id : BlockId) (name : String) :
      Step g (g.modify id fun b => { b with fields := b.fields.erase name })
  | setPosition (id : BlockId) (position : Position) :
      Step g (g.modify id fun b => { b with position := some position })
  | plug (parent : BlockId) (socket : SocketName) (child : BlockId)
      (h : g.Pluggable parent socket child) : Step g (g.plug parent socket child)
  | unplug (parent : BlockId) (socket : SocketName) (child : BlockId)
      (h : g.parent? child = some (parent, socket)) : Step g (g.unplug parent socket child)
  | erase (id : BlockId) (h : g.Live id) :
      Step g ((g.loosen id).erase ((g.loosen id).descendants id))
  | pin (warning : Warning) : Step g (g.pin warning)

/-- Every edit is one of the steps, a refused one the step that changes nothing. -/
theorem step_edit (g : Graph) (e : GraphEdit) : g.Step (g.edit e) := by
  cases e with
  | insert kind => exact .insert kind
  | setField id name value =>
      cases h : g.setField id name value with
      | error => simpa [edit, h, Except.toOption] using Step.same
      | ok g' =>
          obtain ⟨⟨kind, hkind, hvalue⟩, rfl⟩ := setField_eq_ok_iff.mp h
          simpa [edit, h, Except.toOption] using Step.setField id kind name value hkind hvalue
  | clearField id name =>
      cases h : g.clearField id name with
      | error => simpa [edit, h, Except.toOption] using Step.same
      | ok result =>
          obtain ⟨-, hg⟩ := clearField_eq_ok_iff.mp h
          simpa [edit, h, Except.toOption, hg] using Step.clearField id name
  | setPosition id position =>
      cases h : g.setPosition id position with
      | error => simpa [edit, h, Except.toOption] using Step.same
      | ok g' =>
          obtain ⟨-, rfl⟩ := setPosition_eq_ok_iff.mp h
          simpa [edit, h, Except.toOption] using Step.setPosition id position
  | connect parent socket child =>
      cases h : g.connect parent socket child with
      | error => simpa [edit, h, Except.toOption] using Step.same
      | ok g' =>
          obtain ⟨hplug, rfl⟩ := connect_eq_ok_iff.mp h
          simpa [edit, h, Except.toOption] using Step.plug parent socket child hplug
  | disconnect child =>
      cases h : g.disconnect child with
      | error => simpa [edit, h, Except.toOption] using Step.same
      | ok result =>
          obtain ⟨hplace, hg⟩ := disconnect_eq_ok_iff.mp h
          simpa [edit, h, Except.toOption, hg] using Step.unplug _ _ child hplace
  | remove id =>
      cases h : g.remove id with
      | error => simpa [edit, h, Except.toOption] using Step.same
      | ok result =>
          obtain ⟨hlive, hgone, hg⟩ := remove_eq_ok_iff.mp h
          simpa [edit, h, Except.toOption, hg, hgone] using Step.erase id hlive
  | pin warning => exact .pin warning

/-! ## The invariant under single changes -/

/-- A new diagram is a forest without blocks. -/
theorem isForest_empty (grammar : Grammar) : (empty grammar).IsForest where
  mirror := by simp [parent?, child?]
  accepted := by simp [child?]
  ranked := ⟨fun _ => 0, by simp [parent?]⟩
  roots_nodup := List.nodup_nil
  mem_roots := by simp [empty, Live, block?]

/-- A forest stays one when kinds, links and roots stay. -/
theorem IsForest.of_same_links (h : g.IsForest) (hgrammar : g'.grammar = g.grammar)
    (hkind : ∀ id, g'.kind? id = g.kind? id)
    (hchild : ∀ id socket, g'.child? id socket = g.child? id socket)
    (hparent : ∀ id, g'.parent? id = g.parent? id) (hroots : g'.roots = g.roots) :
    g'.IsForest where
  mirror := by
    intro parent socket child
    rw [hchild, hparent]
    exact h.mirror
  accepted := by
    intro parent socket child hc
    rw [hchild] at hc
    simpa only [hkind, hgrammar] using h.accepted hc
  ranked := by simpa only [hparent] using h.ranked
  roots_nodup := hroots ▸ h.roots_nodup
  mem_roots := by
    intro id
    rw [hroots, hparent, h.mem_roots, live_iff_kind?, live_iff_kind?, hkind]

/-- A new block is a root of its own. -/
theorem IsForest.insert (h : g.IsForest) (kind : BlockKind) : (g.insert kind).IsForest := by
  have hnew : ¬ g.Live g.nextId := fun hlive => Nat.lt_irrefl _ hlive.lt_nextId
  have hroots : (g.insert kind).roots = g.roots ++ [g.nextId] := rfl
  refine ⟨?_, ?_, ?_, ?_, ?_⟩
  · intro parent socket child
    rw [parent?_insert, child?_insert]
    exact h.mirror
  · intro parent socket child hc
    rw [child?_insert] at hc
    obtain ⟨p, c, hp, hc', haccepts⟩ := h.accepted hc
    have hparent : parent ≠ g.nextId := fun heq => hnew (heq ▸ live_of_kind? hp)
    have hchild : child ≠ g.nextId := fun heq => hnew (heq ▸ live_of_kind? hc')
    exact ⟨p, c, by rw [kind?_insert, if_neg hparent, hp],
      by rw [kind?_insert, if_neg hchild, hc'], haccepts⟩
  · simpa [parent?_insert] using h.ranked
  · rw [hroots, ← List.concat_eq_append]
    exact h.roots_nodup.concat fun hmem => hnew (h.mem_roots.mp hmem).1
  · intro id
    rw [hroots, List.mem_append, h.mem_roots, List.mem_singleton, parent?_insert, Live, Live,
      block?_insert]
    by_cases hid : id = g.nextId
    · simp [hid, parent?, block?_eq_none (Nat.le_refl g.nextId)]
    · simp [hid]

/-- Changes that touch no link keep the forest. -/
theorem IsForest.modify (h : g.IsForest) (target : BlockId) {f : Block → Block}
    (hkind : ∀ b, (f b).kind = b.kind) (hinputs : ∀ b, (f b).inputs = b.inputs)
    (hparent : ∀ b, (f b).parent = b.parent) : (g.modify target f).IsForest :=
  h.of_same_links (grammar_modify g target f) (kind?_modify target hkind)
    (child?_modify target hinputs) (parent?_modify target hparent) (roots_modify g target f)

/-- Plugging a block in gives it a place and moves no other block. -/
theorem Pluggable.parent?_plug (hplug : g.Pluggable parent socket child) (id : BlockId) :
    (g.plug parent socket child).parent? id =
      if id = child then some (parent, socket) else g.parent? id := by
  obtain ⟨p, c, -, hc, -⟩ := hplug.accepted
  exact parent?_relink g parent socket child _ _ _ (live_of_kind? hc) id

/-- Plugging a block in fills one socket and no other. -/
theorem Pluggable.child?_plug (hplug : g.Pluggable parent socket child) (id : BlockId)
    (place : SocketName) : (g.plug parent socket child).child? id place =
      if id = parent ∧ place = socket then some child else g.child? id place := by
  obtain ⟨p, c, hp, -, -⟩ := hplug.accepted
  exact child?_relink g parent socket child _ _ _ (live_of_kind? hp) id place

section Plug

variable (h : g.IsForest) (hplug : g.Pluggable parent socket child)

include h hplug

/-- After a link both ends still agree on all links. -/
theorem IsForest.mirror_plug (other : BlockId) (place : SocketName) (below : BlockId) :
    (g.plug parent socket child).parent? below = some (other, place) ↔
      (g.plug parent socket child).child? other place = some below := by
  rw [hplug.parent?_plug, hplug.child?_plug]
  by_cases hb : below = child
  · subst hb
    have hnone : g.child? other place ≠ some below := by
      intro hsome
      have hloose := hplug.loose
      rw [h.mirror.mpr hsome] at hloose
      cases hloose
    by_cases ho : other = parent ∧ place = socket
    · simp [ho]
    · simp only [if_true, ho, if_false, hnone, iff_false, Option.some.injEq, Prod.mk.injEq]
      exact fun hsame => ho ⟨hsame.1.symm, hsame.2.symm⟩
  · rw [if_neg hb]
    by_cases ho : other = parent ∧ place = socket
    · obtain ⟨rfl, rfl⟩ := ho
      simp [h.mirror, hplug.free, Ne.symm hb]
    · rw [if_neg ho]
      exact h.mirror

/-- Everything at or below the child moves above the rank of the parent. -/
theorem IsForest.ranked_plug : ∃ rank : BlockId → Nat, ∀ {other place below},
    (g.plug parent socket child).parent? below = some (other, place) → rank other < rank below := by
  classical
  obtain ⟨rank, hrank⟩ := h.ranked
  -- The child is not above the parent, so the parent keeps its rank.
  have hnotAbove : ∀ n, g.climb n parent ≠ some child := by
    intro n hn
    have hapart := hplug.apart
    rw [h.isAncestor_iff.mpr ⟨n, hn⟩] at hapart
    cases hapart
  refine ⟨fun id => if ∃ n, g.climb n id = some child then rank id + rank parent + 1 else rank id,
    ?_⟩
  intro other place below hbelow
  dsimp only
  rw [hplug.parent?_plug] at hbelow
  split at hbelow
  next hb =>
    subst hb
    obtain ⟨rfl, rfl⟩ := Prod.mk.inj (Option.some.inj hbelow)
    rw [if_neg (not_exists.mpr hnotAbove), if_pos ⟨0, rfl⟩]
    omega
  next hb =>
    have hbelowChild : (∃ n, g.climb n below = some child) ↔ ∃ n, g.climb n other = some child := by
      constructor
      · rintro ⟨n, hn⟩
        cases n with
        | zero => exact absurd (Option.some.inj hn) hb
        | succ n => exact ⟨n, by simpa [climb, hbelow] using hn⟩
      · rintro ⟨n, hn⟩
        exact ⟨n + 1, by simpa [climb, hbelow] using hn⟩
    have hlt := hrank hbelow
    by_cases hunder : ∃ n, g.climb n other = some child
    · rw [if_pos hunder, if_pos (hbelowChild.mpr hunder)]
      omega
    · rwa [if_neg hunder, if_neg (mt hbelowChild.mp hunder)]

/-- A link that can be made keeps the forest. -/
theorem IsForest.plug : (g.plug parent socket child).IsForest where
  mirror := h.mirror_plug hplug _ _ _
  accepted := by
    intro other place below hbelow
    rw [hplug.child?_plug] at hbelow
    simp only [Graph.plug, kind?_relink, grammar_relink]
    split at hbelow
    next ho =>
      obtain rfl := Option.some.inj hbelow
      obtain ⟨rfl, rfl⟩ := ho
      exact hplug.accepted
    next => exact h.accepted hbelow
  ranked := h.ranked_plug hplug
  roots_nodup := h.roots_nodup.filter _
  mem_roots := by
    intro id
    rw [hplug.parent?_plug, Graph.plug, roots_relink, List.mem_filter, h.mem_roots,
      live_iff_kind?, live_iff_kind?, kind?_relink]
    by_cases hid : id = child <;> simp [hid]

end Plug

theorem IsForest.child?_unplug (h : g.IsForest) (hplace : g.parent? child = some (parent, socket))
    (id : BlockId) (place : SocketName) : (g.unplug parent socket child).child? id place =
      if id = parent ∧ place = socket then none else g.child? id place :=
  child?_relink g parent socket child none none _ (h.live_parent hplace) id place

/-- Unplugging a block drops its link and no other. -/
theorem IsForest.child?_unplug_eq_some (h : g.IsForest)
    (hplace : g.parent? id = some (parent, socket)) {other below : BlockId} {place : SocketName} :
    (g.unplug parent socket id).child? other place = some below ↔
      g.child? other place = some below ∧ below ≠ id := by
  have hlink : g.child? parent socket = some id := h.mirror.mp hplace
  rw [h.child?_unplug hplace]
  constructor
  · intro hbelow
    split at hbelow
    next => cases hbelow
    next hapart =>
      refine ⟨hbelow, ?_⟩
      rintro rfl
      rw [h.mirror.mpr hbelow] at hplace
      exact hapart (Prod.mk.inj (Option.some.inj hplace))
  · rintro ⟨hbelow, hne⟩
    split
    next hsame =>
      obtain ⟨rfl, rfl⟩ := hsame
      exact absurd (Option.some.inj (hbelow.symm.trans hlink)) hne
    next => exact hbelow

/-- Unplugging a block takes its place from it and from no other block. -/
theorem parent?_unplug (hplace : g.parent? child = some (parent, socket)) (id : BlockId) :
    (g.unplug parent socket child).parent? id = if id = child then none else g.parent? id :=
  parent?_relink g parent socket child none none _ (live_of_parent? hplace) id

/-- After a link is dropped both ends still agree on all links. -/
theorem IsForest.mirror_unplug (h : g.IsForest) (hplace : g.parent? child = some (parent, socket))
    (other : BlockId) (place : SocketName) (below : BlockId) :
    (g.unplug parent socket child).parent? below = some (other, place) ↔
      (g.unplug parent socket child).child? other place = some below := by
  have hlink : g.child? parent socket = some child := h.mirror.mp hplace
  rw [parent?_unplug hplace, h.child?_unplug hplace]
  by_cases hb : below = child
  · subst hb
    by_cases ho : other = parent ∧ place = socket
    · simp [ho]
    · simp only [if_true, ho, if_false]
      refine ⟨fun hnone => (by cases hnone), fun hsome => (ho ?_).elim⟩
      rw [h.mirror.mpr hsome] at hplace
      exact Prod.mk.inj (Option.some.inj hplace)
  · rw [if_neg hb]
    by_cases ho : other = parent ∧ place = socket
    · obtain ⟨rfl, rfl⟩ := ho
      simp [h.mirror, hlink, Ne.symm hb]
    · rw [if_neg ho]
      exact h.mirror

/-- Dropping a link keeps the forest, and the child becomes a root. -/
theorem IsForest.unplug (h : g.IsForest) (hplace : g.parent? child = some (parent, socket)) :
    (g.unplug parent socket child).IsForest where
  mirror := h.mirror_unplug hplace _ _ _
  accepted := by
    intro other place below hbelow
    rw [h.child?_unplug hplace] at hbelow
    simp only [Graph.unplug, kind?_relink, grammar_relink]
    split at hbelow
    next => cases hbelow
    next => exact h.accepted hbelow
  ranked := by
    -- Fewer links leave the ranks as they are.
    obtain ⟨rank, hrank⟩ := h.ranked
    refine ⟨rank, ?_⟩
    intro other place below hbelow
    rw [parent?_unplug hplace] at hbelow
    split at hbelow
    next => cases hbelow
    next => exact hrank hbelow
  roots_nodup := by
    rw [Graph.unplug, roots_relink, ← List.concat_eq_append]
    apply h.roots_nodup.concat
    intro hmem
    rw [(h.mem_roots.mp hmem).2] at hplace
    cases hplace
  mem_roots := by
    intro id
    rw [parent?_unplug hplace, Graph.unplug, roots_relink, List.mem_append, List.mem_singleton,
      h.mem_roots, live_iff_kind?, live_iff_kind?, kind?_relink]
    by_cases hid : id = child
    · subst hid
      simpa using live_iff_kind?.mp (live_of_parent? hplace)
    · simp [hid]

/-- Removing a set of blocks leaves a forest when with a block all below it goes, and with a block
whatever it is plugged into. -/
theorem IsForest.erase (h : g.IsForest) (gone : List BlockId)
    (hclosed : ∀ {parent socket child}, g.child? parent socket = some child →
      (parent ∈ gone ↔ child ∈ gone)) : (g.erase gone).IsForest := by
  refine ⟨?_, ?_, ?_, ?_, ?_⟩
  · intro parent socket child
    rw [parent?_erase, child?_erase]
    by_cases hp : parent ∈ gone <;> by_cases hc : child ∈ gone
    · simp [hp, hc]
    · simp only [hp, hc, if_true, if_false]
      exact ⟨fun hplace => absurd ((hclosed (h.mirror.mp hplace)).mp hp) hc, nofun⟩
    · simp only [hp, hc, if_true, if_false]
      exact ⟨nofun, fun hlink => absurd ((hclosed hlink).mpr hc) hp⟩
    · simpa only [hp, hc, if_false] using h.mirror
  · intro parent socket child hlink
    rw [child?_erase] at hlink
    split at hlink
    next => cases hlink
    next hp =>
      have hc : child ∉ gone := fun hc => hp ((hclosed hlink).mpr hc)
      rw [kind?_erase, kind?_erase, if_neg hp, if_neg hc]
      exact h.accepted hlink
  · obtain ⟨rank, hrank⟩ := h.ranked
    refine ⟨rank, ?_⟩
    intro parent socket child hplace
    rw [parent?_erase] at hplace
    split at hplace
    next => cases hplace
    next => exact hrank hplace
  · exact h.roots_nodup.filter _
  · intro id
    change id ∈ g.roots.filter _ ↔ _
    rw [List.mem_filter, h.mem_roots, parent?_erase, Live, Live, block?_erase]
    by_cases hid : id ∈ gone <;> simp [hid]

theorem IsForest.pin (h : g.IsForest) (warning : Warning) : (g.pin warning).IsForest :=
  h.of_same_links rfl (fun _ => rfl) (fun _ _ => rfl) (fun _ => rfl) rfl

theorem IsForest.loosen (h : g.IsForest) (id : BlockId) : (g.loosen id).IsForest := by
  unfold Graph.loosen
  split
  next => exact h
  next hplace => exact h.unplug hplace

/-- A loosened block is in no socket; all other links stay. -/
theorem IsForest.child?_loosen_eq_some (h : g.IsForest) :
    (g.loosen id).child? parent socket = some child ↔
      g.child? parent socket = some child ∧ child ≠ id := by
  unfold Graph.loosen
  split
  next hroot =>
    refine ⟨fun hlink => ⟨hlink, ?_⟩, And.left⟩
    rintro rfl
    rw [h.mirror.mpr hlink] at hroot
    cases hroot
  next hplace => exact h.child?_unplug_eq_some hplace

@[simp]
theorem grammar_loosen (g : Graph) (id : BlockId) : (g.loosen id).grammar = g.grammar := by
  unfold loosen
  split
  next => rfl
  next => exact grammar_relink ..

theorem live_loosen_iff {other : BlockId} : (g.loosen id).Live other ↔ g.Live other := by
  unfold loosen
  split
  next => rfl
  next => rw [live_iff_kind?, unplug, kind?_relink, ← live_iff_kind?]

theorem live_loosen (hid : g.Live id) : (g.loosen id).Live id := live_loosen_iff.mpr hid

theorem parent?_loosen (g : Graph) (id : BlockId) : (g.loosen id).parent? id = none := by
  unfold loosen
  split
  next hplace => exact hplace
  next hplace => rw [parent?_unplug hplace, if_pos rfl]

/-- Below a root a link leads from a block to another or lies apart. -/
theorem IsForest.mem_descendants_of_link (h : g.IsForest) (hid : g.Live id)
    (hroot : g.parent? id = none) (hlink : g.child? parent socket = some child) :
    parent ∈ g.descendants id ↔ child ∈ g.descendants id := by
  rw [h.mem_descendants hid, h.mem_descendants hid]
  have hplace := h.mirror.mpr hlink
  constructor
  · rintro ⟨n, hn⟩
    exact ⟨n + 1, by simpa [climb, hplace] using hn⟩
  · rintro ⟨n, hn⟩
    cases n with
    | zero =>
        obtain rfl := Option.some.inj hn
        rw [hroot] at hplace
        cases hplace
    | succ n => exact ⟨n, by simpa [climb, hplace] using hn⟩

/-- All below a root can be removed at once. -/
theorem IsForest.erase_descendants (h : g.IsForest) (hid : g.Live id)
    (hroot : g.parent? id = none) : (g.erase (g.descendants id)).IsForest :=
  h.erase _ (h.mem_descendants_of_link hid hroot)

/-- Removing a block takes with it every link that has an end below the block, and its own. -/
theorem IsForest.child?_erase_eq_some (h : g.IsForest) (hid : g.Live id) :
    ((g.loosen id).erase ((g.loosen id).descendants id)).child? parent socket = some child ↔
      g.child? parent socket = some child ∧ parent ∉ (g.loosen id).descendants id ∧
        child ∉ (g.loosen id).descendants id := by
  have hloose := h.loosen id
  have hclosed := @IsForest.mem_descendants_of_link _ id parent child socket hloose
    (live_loosen hid) (parent?_loosen g id)
  have hgone : id ∈ (g.loosen id).descendants id :=
    (hloose.mem_descendants (live_loosen hid)).mpr ⟨0, rfl⟩
  rw [child?_erase]
  by_cases hparent : parent ∈ (g.loosen id).descendants id
  · simp [hparent]
  · rw [if_neg hparent]
    constructor
    · intro hkept
      exact ⟨(h.child?_loosen_eq_some.mp hkept).1, hparent, mt (hclosed hkept).mpr hparent⟩
    · rintro ⟨hlink, -, hchild⟩
      exact h.child?_loosen_eq_some.mpr ⟨hlink, fun heq => hchild (heq ▸ hgone)⟩

/-! ## The invariant along runs -/

/-- Every step keeps the forest. -/
theorem IsForest.step (h : g.IsForest) (hstep : g.Step g') : g'.IsForest := by
  cases hstep with
  | same => exact h
  | insert kind => exact h.insert kind
  | setField id kind name value hkind hvalue =>
      exact h.modify id (fun _ => rfl) (fun _ => rfl) (fun _ => rfl)
  | clearField id name => exact h.modify id (fun _ => rfl) (fun _ => rfl) (fun _ => rfl)
  | setPosition id position => exact h.modify id (fun _ => rfl) (fun _ => rfl) (fun _ => rfl)
  | plug parent socket child hplug => exact h.plug hplug
  | unplug parent socket child hplace => exact h.unplug hplace
  | erase id hid => exact (h.loosen id).erase_descendants (live_loosen hid) (parent?_loosen g id)
  | pin warning => exact h.pin warning

/-- Edits in sequence keep the forest, by induction on the edits. -/
theorem IsForest.run (h : g.IsForest) (edits : List GraphEdit) : (g.run edits).IsForest := by
  induction edits generalizing g with
  | nil => exact h
  | cons e edits ih => exact ih (h.step (step_edit g e))

theorem grammar_step (hstep : g.Step g') : g'.grammar = g.grammar := by
  cases hstep with
  | setField | clearField | setPosition => exact grammar_modify _ _ _
  | plug | unplug => exact grammar_relink _ _ _ _ _ _ _
  | erase id => exact grammar_loosen g id
  | same | insert | pin => rfl

/-- No edit changes the grammar. -/
theorem grammar_run (g : Graph) (edits : List GraphEdit) : (g.run edits).grammar = g.grammar := by
  induction edits generalizing g with
  | nil => rfl
  | cons e edits ih => exact (ih _).trans (grammar_step (step_edit g e))

/-- Whatever edits are asked of a new diagram, both ends of its links agree, the grammar accepts
each link, the way up from a block ends at a root after finitely many steps and never comes back,
and the roots are, each once, the blocks without a parent. -/
theorem edits_keep_typed_forest (grammar : Grammar) (edits : List GraphEdit) :
    let g := (empty grammar).run edits
    (∀ parent socket child,
      g.parent? child = some (parent, socket) ↔ g.child? parent socket = some child) ∧
    (∀ parent socket child, g.child? parent socket = some child →
      ∃ p c, g.kind? parent = some p ∧ g.kind? child = some c ∧
        grammar.accepts p socket c = true) ∧
    (∀ id, g.Live id → ∃ n root, g.climb n id = some root ∧ root ∈ g.roots) ∧
    (∀ id n, g.climb (n + 1) id ≠ some id) ∧
    g.roots.Nodup ∧ ∀ id, id ∈ g.roots ↔ g.Live id ∧ g.parent? id = none := by
  intro g
  have h : g.IsForest := (isForest_empty grammar).run edits
  have hgrammar : g.grammar = grammar := grammar_run (empty grammar) edits
  exact ⟨fun _ _ _ => h.mirror, fun _ _ _ hlink => hgrammar ▸ h.accepted hlink,
    fun _ hid => h.exists_root hid, fun id n => h.climb_succ_ne_self n id, h.roots_nodup,
    fun _ => h.mem_roots⟩

end Graph

end TaskDiagram
