import TaskDiagram.Proofs.Graph.Edits
import TaskDiagram.Proofs.Graph.Trees

/-! # Building diagrams

Loading only adds blocks and links them, so each part of it is described by what it adds
behind the blocks that are there and by the few old blocks in which a socket is filled.
-/

namespace TaskDiagram.Graph

variable {g g' g'' : Graph} {lo hi : Nat}

/-! ## Growing diagrams -/

/-- `g'` continues `g`: old blocks show what they showed, except for those that are touched. -/
structure Extends (g g' : Graph) (touched : Nat → Prop) (found : List WarningKind) : Prop where
  forest : g'.IsForest
  grammar : g'.grammar = g.grammar
  nextId_le : g.nextId ≤ g'.nextId
  face? : ∀ id : Nat, id < g.nextId → ¬ touched id → g'.face? id = g.face? id
  pinned : g'.pinned.map (·.kind) = g.pinned.map (·.kind) ++ found

/-- No block is touched. -/
abbrev Untouched : Nat → Prop := fun _ => False

theorem Extends.refl (hg : g.IsForest) (touched : Nat → Prop) : g.Extends g touched [] where
  forest := hg
  grammar := rfl
  nextId_le := Nat.le_refl _
  face? _ _ _ := rfl
  pinned := (List.append_nil _).symm

/-- A diagram that continues one is continued in turn; what is found adds up. -/
theorem Extends.trans {first second touched : Nat → Prop} {found found' : List WarningKind}
    (h : g.Extends g' first found) (h' : g'.Extends g'' second found')
    (htouched : ∀ id : Nat, id < g.nextId → first id ∨ second id → touched id) :
    g.Extends g'' touched (found ++ found') where
  forest := h'.forest
  grammar := h'.grammar.trans h.grammar
  nextId_le := Nat.le_trans h.nextId_le h'.nextId_le
  face? id hid hnot := by
    rw [h'.face? id (Nat.lt_of_lt_of_le hid h.nextId_le) fun hs => hnot (htouched id hid (.inr hs)),
      h.face? id hid fun hf => hnot (htouched id hid (.inl hf))]
  pinned := by rw [h'.pinned, h.pinned, List.append_assoc]

/-- Where nothing is touched, old blocks show what they showed. -/
theorem Extends.face?_old {found : List WarningKind} (h : g.Extends g' Untouched found) {id : Nat}
    (hid : id < g.nextId) : g'.face? id = g.face? id :=
  h.face? id hid fun hnot => hnot

/-- A new block touches no old one. -/
theorem Extends.insert (hg : g.IsForest) (kind : BlockKind) :
    g.Extends (g.insert kind) Untouched [] where
  forest := hg.insert kind
  grammar := rfl
  nextId_le := by
    rw [nextId_insert]
    exact Nat.le_succ _
  face? id hid _ := by rw [face?_insert, if_neg (Nat.ne_of_lt hid)]
  pinned := (List.append_nil _).symm

theorem Extends.pin (hg : g.IsForest) (warning : Warning) :
    g.Extends (g.pin warning) Untouched [warning.kind] where
  forest := hg.pin warning
  grammar := rfl
  nextId_le := Nat.le_refl _
  face? _ _ _ := rfl
  pinned := List.map_append

/-- A link touches the block it leads from and no other. -/
theorem Extends.plug (hg : g.IsForest) {parent child : BlockId} {socket : SocketName}
    (h : g.Pluggable parent socket child) :
    g.Extends (g.plug parent socket child) (· = parent) [] where
  forest := hg.plug h
  grammar := grammar_relink _ _ _ _ _ _ _
  nextId_le := Nat.le_of_eq (nextId_relink _ _ _ _ _ _ _).symm
  face? id _ hid := by
    rw [Graph.plug, face?_relink]
    simp [hid]
  pinned := by
    rw [Graph.plug, pinned_relink, List.append_nil]

/-! ## Links that are made -/

/-- What is below a block lies in the range of its tree. -/
theorem Shows.lo_le_of_climb (hg : g.IsForest) {n : Nat} {t : Tree} {ancestor id : Nat}
    (h : g.Shows lo hi t ancestor) (hn : g.climb n id = some ancestor) : lo ≤ id := by
  induction n generalizing t ancestor with
  | zero => exact Option.some.inj hn ▸ h.lo_le
  | succ n ih =>
      obtain ⟨child, socket, hclimb, hplace⟩ := climb_succ_eq_some.mp hn
      rcases rel_cases (h.child? socket) with ⟨-, hc⟩ | ⟨_, c, -, hc, hshows⟩
      · rw [hg.mirror.mp hplace] at hc
        cases hc
      · rw [hg.mirror.mp hplace] at hc
        obtain rfl := Option.some.inj hc
        exact ih hshows hclimb

/-- A root whose tree was built later than a block can be plugged into a free socket of it that
accepts the root. -/
theorem pluggable_of_shows (hg : g.IsForest) {kind : BlockKind} {fields : FieldMap}
    {links : Sockets BlockId} {parent child : Nat} {t : Tree} {socket : SocketName}
    (hparent : g.face? parent = some ⟨kind, fields, links⟩) (hfree : links.get? socket = none)
    (hshows : g.Shows lo hi t child) (hroot : child ∈ g.roots) (hlt : parent < lo)
    (haccepts : g.grammar.accepts kind socket t.kind = true) :
    g.Pluggable parent socket child where
  accepted := ⟨kind, t.kind, by rw [kind?_eq_face?, hparent]; rfl, hshows.kind, haccepts⟩
  loose := (hg.mem_roots.mp hroot).2
  free := by rw [child?_eq_face?, hparent]; exact hfree
  apart := by
    rw [Bool.eq_false_iff]
    -- What lies below the child has ids from `lo` on, and the parent is older.
    intro habove
    obtain ⟨n, hn⟩ := hg.isAncestor_iff.mp habove
    exact absurd (hshows.lo_le_of_climb hg hn) (Nat.not_le_of_lt hlt)

/-- The block a link leads from shows the link. -/
theorem face?_plug (g : Graph) (parent child : Nat) (socket : SocketName) :
    (g.plug parent socket child).face? parent =
      (g.face? parent).map fun f => { f with inputs := f.inputs.set (some child) socket } := by
  rw [plug, face?_relink]
  simp

theorem filter_ne_of_nodup {before after : List BlockId} {child : BlockId}
    (h : (before ++ child :: after).Nodup) :
    (before ++ child :: after).filter (· != child) = before ++ after := by
  have hnot : child ∉ before := fun hmem =>
    (List.nodup_append.mp h).2.2 child hmem child List.mem_cons_self rfl
  rw [← h.erase_eq_filter, List.erase_append_right _ hnot, List.erase_cons_head]

/-! ## Pieces -/

section Frame

variable {lo' hi' : Nat}

theorem rel_frame (hlo : lo' ≤ lo) (hhi : hi ≤ hi')
    (hface : ∀ id : Nat, lo ≤ id → id < hi → g'.face? id = g.face? id) {t : Option Tree}
    {content : Option BlockId} (h : Option.Rel (g.Shows lo hi) t content) :
    Option.Rel (g'.Shows lo' hi') t content := by
  cases h with
  | none => exact .none
  | some h => exact .some (h.frame hlo hhi hface)

theorem rel_widen {t : Option Tree} {content : Option BlockId}
    (h : Option.Rel (g.Shows lo hi) t content) (hlo : lo' ≤ lo) (hhi : hi ≤ hi') :
    Option.Rel (g.Shows lo' hi') t content :=
  rel_frame hlo hhi (fun _ _ _ => rfl) h

theorem forall₂_frame (hlo : lo' ≤ lo) (hhi : hi ≤ hi')
    (hface : ∀ id : Nat, lo ≤ id → id < hi → g'.face? id = g.face? id) {ts : List Tree}
    {ids : List BlockId} (h : List.Forall₂ (g.Shows lo hi) ts ids) :
    List.Forall₂ (g'.Shows lo' hi') ts ids :=
  h.imp fun _ _ hshows => hshows.frame hlo hhi hface

theorem forall₂_widen {ts : List Tree} {ids : List BlockId}
    (h : List.Forall₂ (g.Shows lo hi) ts ids) (hlo : lo' ≤ lo) (hhi : hi ≤ hi') :
    List.Forall₂ (g.Shows lo' hi') ts ids :=
  h.imp fun _ _ hshows => hshows.widen hlo hhi

end Frame

theorem ShowsInputs.of_rel {socket : SocketName} {t : Option Tree} {content : Option BlockId}
    (h : Option.Rel (g.Shows lo hi) t content) :
    g.ShowsInputs lo hi (Tree.inSocket socket t) (content.map (socket, ·)).toList := by
  cases h with
  | none => exact .nil
  | some h => exact .cons h .nil

/-- Contents of sockets that follow one another are shown together. -/
theorem ShowsInputs.append {inputs inputs' : List (SocketName × Tree)}
    {links links' : List (SocketName × BlockId)} (h : g.ShowsInputs lo hi inputs links)
    (h' : g.ShowsInputs lo hi inputs' links') :
    g.ShowsInputs lo hi (inputs ++ inputs') (links ++ links') := by
  induction inputs generalizing links with
  | nil =>
      cases h
      exact h'
  | cons input inputs ih =>
      cases h with
      | cons hchild hrest => exact .cons hchild (ih hrest)

/-- What is free in a tree is free in the block that shows it. -/
theorem ShowsInputs.get?_eq_none {inputs : List (SocketName × Tree)} {links : Sockets BlockId}
    (h : g.ShowsInputs lo hi inputs links.toList) {socket : SocketName}
    (hfree : ∀ entry ∈ inputs, entry.1 ≠ socket) : links.get? socket = none := by
  have hrel := h.find? socket
  have hnone : inputs.find? (·.1 == socket) = none :=
    List.find?_eq_none.mpr fun entry hentry => by simpa using hfree entry hentry
  rw [hnone, Sockets.find?_toList] at hrel
  cases hget : links.get? socket with
  | none => rfl
  | some content =>
      rw [hget] at hrel
      cases hrel

/-- The block `id` shows a link of a chain, what is plugged into it was made later, and `next` is
plugged in behind it. -/
structure Segment (g : Graph) (hi : Nat) (t : Tree) (id : Nat) (next : Option BlockId) : Prop where
  lt_hi : id < hi
  openAt : t.OpenAt .next
  shown : ∃ links : Sockets BlockId, g.face? id = some ⟨t.kind, t.fields, links.set next .next⟩ ∧
    g.ShowsInputs (id + 1) hi t.inputs links.toList

namespace Segment

variable {t : Tree} {id : Nat} {next : Option BlockId}

theorem kind (h : g.Segment hi t id next) : g.kind? id = some t.kind := by
  obtain ⟨links, hface, -⟩ := h.shown
  rw [kind?_eq_face?, hface]
  rfl

/-- A link with a chain behind it is a chain. -/
theorem shows_plug (h : g.Segment hi t id next) {lo' hi' : Nat} {after : Option Tree}
    (hafter : Option.Rel (g.Shows lo' hi') after next) (hlo : lo ≤ id) (hlo' : lo ≤ lo')
    (hhi : hi ≤ hi') : g.Shows lo hi' (t.plug .next after) id := by
  obtain ⟨links, hface, hinputs⟩ := h.shown
  refine .node hlo (Nat.lt_of_lt_of_le h.lt_hi hhi) hface ?_
  rw [Sockets.toList_set links fun other hother => hinputs.get?_eq_none fun entry hentry heq =>
    Nat.not_lt_of_le hother (heq ▸ h.openAt entry hentry)]
  exact (hinputs.frame (Nat.le_succ_of_le hlo) hhi fun _ _ _ => rfl).append
    (.of_rel (rel_widen hafter hlo' (Nat.le_refl _)))

/-- A link with nothing behind it is a tree. -/
theorem shows (h : g.Segment hi t id none) (hlo : lo ≤ id) : g.Shows lo hi t id := by
  have hnone : Option.Rel (g.Shows lo hi) none none := .none
  have := h.shows_plug hnone hlo (Nat.le_refl _) (Nat.le_refl _)
  rwa [Tree.plug_none] at this

/-- A link stays as it is as long as the blocks of its range show what they showed. -/
theorem frame (h : g.Segment hi t id next) {hi' : Nat} (hhi : hi ≤ hi')
    (hface : ∀ other : Nat, id ≤ other → other < hi → g'.face? other = g.face? other) :
    g'.Segment hi' t id next where
  lt_hi := Nat.lt_of_lt_of_le h.lt_hi hhi
  openAt := h.openAt
  shown := by
    obtain ⟨links, hshown, hinputs⟩ := h.shown
    exact ⟨links, (hface id (Nat.le_refl _) h.lt_hi).trans hshown,
      hinputs.frame (Nat.le_refl _) hhi fun other h1 h2 => hface other (Nat.le_of_lt h1) h2⟩

/-- Filling the way on of a link changes nothing else about it. -/
theorem set_next (h : g.Segment hi t id next) {content : Option BlockId}
    (hself : g'.face? id = (g.face? id).map fun f => { f with inputs := f.inputs.set content .next })
    (hface : ∀ other : Nat, id < other → other < hi → g'.face? other = g.face? other) :
    g'.Segment hi t id content where
  lt_hi := h.lt_hi
  openAt := h.openAt
  shown := by
    obtain ⟨links, hshown, hinputs⟩ := h.shown
    refine ⟨links, ?_, hinputs.frame (Nat.le_refl _) (Nat.le_refl _) hface⟩
    rw [hself, hshown]
    rfl

/-- Filling another socket of a link, one behind all that are filled. -/
theorem fill (h : g.Segment hi t id none) {socket : SocketName} (hopen : t.OpenAt socket)
    (hs : socket ≠ .next) {child hi' : Nat} {u : Tree} (hu : g'.Shows (id + 1) hi' u child)
    (hself : g'.face? id =
      (g.face? id).map fun f => { f with inputs := f.inputs.set (some child) socket })
    (hface : ∀ other : Nat, id < other → other < hi → g'.face? other = g.face? other)
    (hhi : hi ≤ hi') : g'.Segment hi' (t.plug socket (some u)) id none where
  lt_hi := Nat.lt_of_lt_of_le h.lt_hi hhi
  openAt := h.openAt.plug (by cases socket <;> first | decide | exact absurd rfl hs) _
  shown := by
    obtain ⟨links, hshown, hinputs⟩ := h.shown
    have hfree : ∀ other, socket.index ≤ other.index → links.get? other = none :=
      fun other hother => hinputs.get?_eq_none fun entry hentry heq =>
        Nat.not_lt_of_le hother (heq ▸ hopen entry hentry)
    refine ⟨links.set (some child) socket, ?_, ?_⟩
    · rw [hself, hshown]
      cases socket <;> first | rfl | exact absurd rfl hs
    · rw [Sockets.toList_set links hfree]
      exact (hinputs.frame (Nat.le_refl _) hhi hface).append (.cons hu .nil)

end Segment

/-- `g'` is `g` with one more root, which shows a tree, and with some roots beside it. -/
structure Grown (g g' : Graph) (t : Tree) (strays : List Tree) (found : List WarningKind) : Prop
    extends Extends g g' Untouched found where
  shown : g'.Shows g.nextId g'.nextId t g.nextId
  roots : ∃ beside, g'.roots = g.roots ++ g.nextId :: beside ∧
    List.Forall₂ (g'.Shows (g.nextId + 1) g'.nextId) strays beside

/-- The new root shows a link with nothing behind it. -/
structure Built (g g' : Graph) (t : Tree) (strays : List Tree) (found : List WarningKind) : Prop
    extends Extends g g' Untouched found where
  segment : g'.Segment g'.nextId t g.nextId none
  roots : ∃ beside, g'.roots = g.roots ++ g.nextId :: beside ∧
    List.Forall₂ (g'.Shows (g.nextId + 1) g'.nextId) strays beside

theorem Built.grown {t : Tree} {strays : List Tree} {found : List WarningKind}
    (h : g.Built g' t strays found) : g.Grown g' t strays found where
  toExtends := h.toExtends
  shown := h.segment.shows (Nat.le_refl _)
  roots := h.roots

/-- A new block shows a link with the fields its kind begins with and nothing in its sockets. -/
theorem Built.insert (hg : g.IsForest) (kind : BlockKind) :
    g.Built (g.insert kind) (.node kind (g.grammar.defaults kind) []) [] [] where
  toExtends := .insert hg kind
  segment := by
    rw [nextId_insert]
    refine ⟨Nat.lt_succ_self _, Tree.openAt_nil _ _ _, .empty, ?_, .nil⟩
    rw [face?_insert, if_pos rfl]
    rfl
  roots := ⟨[], rfl, .nil⟩

/-! ### Fields -/

/-- A change of fields shows at the one block that is changed. -/
theorem face?_modify_fields (g : Graph) (target : Nat) (f : FieldMap → FieldMap) (id : Nat) :
    (g.modify target fun b => { b with fields := f b.fields }).face? id =
      (g.face? id).map fun face =>
        if id = target then { face with fields := f face.fields } else face := by
  rw [face?, block?_modify, face?, Option.map_map, Option.map_map]
  congr 1
  funext b
  dsimp only [Function.comp, Block.face]
  split <;> rfl

/-- A change of fields touches one block and keeps the forest. -/
theorem Extends.modify_fields (hg : g.IsForest) (target : Nat) (f : FieldMap → FieldMap) :
    g.Extends (g.modify target fun b => { b with fields := f b.fields }) (· = target) [] where
  forest := hg.modify target (fun _ => rfl) (fun _ => rfl) (fun _ => rfl)
  grammar := grammar_modify _ _ _
  nextId_le := Nat.le_of_eq (nextId_modify _ _ _).symm
  face? id _ hid := by
    rw [face?_modify_fields]
    simp [hid]
  pinned := by rw [pinned_modify, List.append_nil]

section Built

variable {t u : Tree} {strays strays' : List Tree} {found found' : List WarningKind}

/-- Changes of the new block itself and beyond the new blocks. -/
theorem Built.change (h : g.Built g' t strays found) {touched : Nat → Prop}
    (hext : g'.Extends g'' touched found') (htouched : ∀ id : Nat, touched id → id = g.nextId) :
    g.Extends g'' Untouched (found ++ found') ∧
      ∀ other : Nat, g.nextId + 1 ≤ other → other < g'.nextId → g''.face? other = g'.face? other := by
  refine ⟨h.toExtends.trans hext fun id hid hor => ?_, fun other h1 h2 => ?_⟩
  · exact hor.elim False.elim fun hid' => Nat.ne_of_lt hid (htouched id hid')
  · exact hext.face? other h2 fun hid' => Nat.ne_of_lt h1 (htouched other hid').symm

/-- Changing fields of the new block changes the fields of its link. -/
theorem Built.modify_fields (h : g.Built g' t strays found) (f : FieldMap → FieldMap) :
    g.Built (g'.modify g.nextId fun b => { b with fields := f b.fields })
      (.node t.kind (f t.fields) t.inputs) strays found := by
  obtain ⟨hext, hafter⟩ :=
    h.change (Extends.modify_fields h.forest g.nextId f) fun _ hid => hid
  have hnext := nextId_modify g' g.nextId fun b => { b with fields := f b.fields }
  have hself := face?_modify_fields g' g.nextId f g.nextId
  obtain ⟨links, hface, hinputs⟩ := h.segment.shown
  obtain ⟨beside, hroots, hstrays⟩ := h.roots
  rw [List.append_nil] at hext
  refine ⟨hext, ⟨?_, h.segment.openAt, links, ?_, ?_⟩, beside, ?_, ?_⟩
  · rw [hnext]
    exact h.segment.lt_hi
  · rw [hself, hface]
    simp [Tree.kind, Tree.fields]
  · rw [hnext]
    exact hinputs.frame (Nat.le_refl _) (Nat.le_refl _) hafter
  · rw [roots_modify, hroots]
  · rw [hnext]
    exact forall₂_frame (Nat.le_refl _) (Nat.le_refl _) hafter hstrays

/-- Setting a field of the new block to a value the grammar admits. -/
theorem Built.set (h : g.Built g' t strays found) {name : String} {value : FieldValue}
    (hvalue : g.grammar.checkField t.kind name value = .ok ()) :
    g.Built (Build.set g.nextId name value g').2
      (.node t.kind (t.fields.insert name value) t.inputs) strays found := by
  rw [set_eq_modify h.segment.kind (h.grammar ▸ hvalue)]
  exact h.modify_fields fun fields => fields.insert name value

theorem Built.clear (h : g.Built g' t strays found) (name : String) :
    g.Built (Build.clear g.nextId name g').2
      (.node t.kind (t.fields.erase name) t.inputs) strays found := by
  rw [clear_eq_modify (h.segment.shows (Nat.le_refl _)).live]
  exact h.modify_fields fun fields => fields.erase name

/-- Recording a finding leaves the new block as it is. -/
theorem Built.pin (h : g.Built g' t strays found) (warning : Warning) :
    g.Built (Build.pin warning g').2 t strays (found ++ [warning.kind]) where
  toExtends := (h.change (Extends.pin h.forest warning) nofun).1
  segment := h.segment.frame (Nat.le_refl _) fun _ _ _ => rfl
  roots := by
    have hafter := (h.change (Extends.pin h.forest warning) nofun).2
    obtain ⟨beside, hroots, hstrays⟩ := h.roots
    exact ⟨beside, hroots, forall₂_frame (Nat.le_refl _) (Nat.le_refl _) hafter hstrays⟩

/-! ### Sockets -/

/-- Another root beside the new one. -/
theorem Built.beside (h : g.Built g' t strays found) (hu : g'.Grown g'' u strays' found') :
    g.Built g'' t (strays ++ u :: strays') (found ++ found') := by
  obtain ⟨hext, hafter⟩ := h.change hu.toExtends nofun
  obtain ⟨beside, hroots, hstrays⟩ := h.roots
  obtain ⟨beside', hroots', hstrays'⟩ := hu.roots
  have hlo : g.nextId + 1 ≤ g'.nextId := h.segment.lt_hi
  refine ⟨hext, h.segment.frame hu.nextId_le fun other _ hother => hu.face?_old hother,
    beside ++ g'.nextId :: beside', ?_, ?_⟩
  · rw [hroots', hroots, List.append_assoc, List.cons_append]
  · refine List.rel_append ?_ (.cons ?_ ?_)
    · exact forall₂_frame (Nat.le_refl _) hu.nextId_le hafter hstrays
    · exact hu.shown.widen hlo (Nat.le_refl _)
    · exact forall₂_widen hstrays' (Nat.le_succ_of_le hlo) (Nat.le_refl _)

/-- A root is plugged into a socket of the new block. -/
theorem Built.fill (h : g.Built g' t strays found) (hu : g'.Grown g'' u strays' found')
    {socket : SocketName} (hopen : t.OpenAt socket) (hs : socket ≠ .next)
    (haccepts : g.grammar.accepts t.kind socket u.kind = true) :
    g.Built (Build.link g.nextId socket g'.nextId g'').2 (t.plug socket (some u))
      (strays ++ strays') (found ++ found') := by
  have hbeside := h.beside hu
  obtain ⟨links, hface, hinputs⟩ := hbeside.segment.shown
  obtain ⟨beside, hroots, hstrays⟩ := h.roots
  obtain ⟨beside', hroots', hstrays'⟩ := hu.roots
  rw [hroots] at hroots'
  -- The chain may go on behind the block, so it is looked at with nothing there.
  have hfree : (links.set none .next).get? socket = none := by
    rw [Sockets.get?_set, if_neg hs]
    exact hinputs.get?_eq_none fun entry hentry heq =>
      Nat.lt_irrefl _ (heq ▸ hopen entry hentry)
  have hplug : g''.Pluggable g.nextId socket g'.nextId :=
    pluggable_of_shows hu.forest hface hfree hu.shown
      (hroots' ▸ List.mem_append_right _ List.mem_cons_self) h.segment.lt_hi
      (hbeside.grammar ▸ haccepts)
  rw [link_eq_plug hplug]
  have hext := Extends.plug hu.forest hplug
  have hnext : (g''.plug g.nextId socket g'.nextId).nextId = g''.nextId := nextId_relink _ _ _ _ _ _ _
  obtain ⟨hall, hafter⟩ := hbeside.change hext fun _ hid => hid
  rw [List.append_nil] at hall
  have hlo : g.nextId + 1 ≤ g'.nextId := h.segment.lt_hi
  refine ⟨hall, ?_, beside ++ beside', ?_, ?_⟩
  · rw [hnext]
    refine hbeside.segment.fill hopen hs ?_ (face?_plug _ _ _ _) hafter (Nat.le_refl _)
    exact hu.shown.frame hlo (Nat.le_refl _) fun other h1 h2 => hafter other (Nat.le_trans hlo h1) h2
  · have hnodup := hu.forest.roots_nodup
    rw [hroots'] at hnodup
    change g''.roots.filter _ = _
    rw [hroots', filter_ne_of_nodup hnodup, List.append_assoc, List.cons_append]
  · rw [hnext]
    apply List.rel_append
    · refine forall₂_frame (Nat.le_refl _) hu.nextId_le (fun other h1 h2 => ?_) hstrays
      rw [hafter other h1 (Nat.lt_of_lt_of_le h2 hu.nextId_le), hu.face?_old h2]
    · refine forall₂_frame (Nat.le_succ_of_le hlo) (Nat.le_refl _) (fun other h1 h2 => ?_) hstrays'
      exact hafter other (Nat.le_trans (Nat.le_succ_of_le hlo) h1) h2

/-- A root the socket does not accept stays beside the new block. -/
theorem Built.refuse (h : g.Built g' t strays found) (hu : g'.Grown g'' u strays' found')
    {socket : SocketName} (hrefused : g.grammar.accepts t.kind socket u.kind = false) :
    g.Built (Build.link g.nextId socket g'.nextId g'').2 t (strays ++ u :: strays')
      (found ++ found' ++ [.rejectedLink t.kind socket u.kind]) := by
  have hbeside := h.beside hu
  rw [link_eq_pin hbeside.segment.kind hu.shown.kind (by rw [hbeside.grammar, hrefused])]
  exact hbeside.pin _

end Built

end TaskDiagram.Graph
