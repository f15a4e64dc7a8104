import Mathlib.Data.List.Nodup
import Mathlib.Tactic.ByContra
import TaskDiagram.Graph.OfProgram

/-! # Contents of diagrams under edits

Each edit is described by what it does to single blocks, to the roots and to the
recorded findings. A successful link or removal is first shown to be one explicit
change of the diagram, so that later arguments need not follow its checks again.
-/

namespace TaskDiagram

/-- What a block shows: its kind, its fields and what is plugged into it. Neither its
coordinates nor the place it is plugged into belong to it. -/
structure Face where
  kind : BlockKind
  fields : FieldMap
  inputs : Sockets BlockId

def Block.face (b : Block) : Face := ⟨b.kind, b.fields, b.inputs⟩

/-- A link between two blocks. -/
structure Link where
  parent : BlockId
  socket : SocketName
  child : BlockId
  deriving DecidableEq

namespace Graph

variable {g g' : Graph} {id parent child : BlockId} {socket : SocketName}

def face? (g : Graph) (id : BlockId) : Option Face := (g.block? id).map Block.face

/-- Whether a block is there. -/
def Live (g : Graph) (id : BlockId) : Prop := (g.block? id).isSome

theorem kind?_eq_face? (g : Graph) (id : BlockId) : g.kind? id = (g.face? id).map (·.kind) := by
  simp [kind?, face?, Block.face, Function.comp_def]

theorem child?_eq_face? (g : Graph) (id : BlockId) (socket : SocketName) :
    g.child? id socket = (g.face? id).bind (·.inputs.get? socket) := by
  cases h : g.block? id <;> simp [child?, face?, Block.face, h]

theorem live_iff_kind? : g.Live id ↔ ∃ kind, g.kind? id = some kind := by
  rw [← Option.isSome_iff_exists, kind?, Option.isSome_map, Live]

theorem live_iff_face? : g.Live id ↔ ∃ face, g.face? id = some face := by
  rw [← Option.isSome_iff_exists, face?, Option.isSome_map, Live]

theorem live_of_kind? {kind : BlockKind} (h : g.kind? id = some kind) : g.Live id :=
  live_iff_kind?.mpr ⟨kind, h⟩

/-- Only a block that is there has something in a socket. -/
theorem live_of_child? (h : g.child? parent socket = some child) : g.Live parent := by
  obtain ⟨b, hb, -⟩ := Option.bind_eq_some_iff.mp h
  simp [Live, hb]

/-- Only a block that is there is plugged in anywhere. -/
theorem live_of_parent? (h : g.parent? child = some (parent, socket)) : g.Live child := by
  obtain ⟨b, hb, -⟩ := Option.bind_eq_some_iff.mp h
  simp [Live, hb]

/-- There is no block under an id that was not handed out. -/
theorem block?_eq_none (h : g.nextId ≤ id) : g.block? id = none := by
  simp [block?, Array.getElem?_eq_none h]

theorem block?_of_gone (h : ¬ g.Live id) : g.block? id = none := by
  simpa [Live] using h

/-- The id of a block that is there was handed out. -/
theorem Live.lt_nextId (h : g.Live id) : id < g.nextId := by
  by_contra hle
  simp [Live, block?_eq_none (Nat.le_of_not_lt hle)] at h

/-- The blocks of a diagram are those that are found under their ids. -/
theorem mem_blocks {b : Block} : (id, b) ∈ g.blocks ↔ g.block? id = some b := by
  simp only [blocks, block?, List.mem_filterMap, Prod.exists, List.mem_zipIdx_iff_getElem?,
    Array.getElem?_toList, Option.join_eq_some_iff]
  constructor
  · rintro ⟨cell, index, hcell, hmap⟩
    obtain ⟨found, rfl, heq⟩ := Option.map_eq_some_iff.mp hmap
    obtain ⟨rfl, rfl⟩ := Prod.mk.inj heq
    exact hcell
  · exact fun h => ⟨some b, id, h, rfl⟩

/-- The blocks are those found under the ids handed out so far, in their order. -/
theorem blocks_eq (g : Graph) :
    g.blocks = (List.range g.nextId).filterMap fun id => (g.block? id).map (id, ·) := by
  have hcells : g.cells.toList.zipIdx = (List.range g.nextId).map fun id => (g.block? id, id) := by
    apply List.ext_getElem
    · simp [nextId]
    · intro id hid _
      have hlt : id < g.cells.size := by simpa using hid
      simp [block?, hlt]
  rw [blocks, hcells, List.filterMap_map]
  rfl

/-- No block is listed twice. -/
theorem blocks_nodup (g : Graph) : g.blocks.Nodup := by
  rw [blocks_eq]
  refine List.nodup_range.filterMap fun id other entry hentry hentry' => ?_
  obtain ⟨_, -, rfl⟩ := Option.map_eq_some_iff.mp hentry
  obtain ⟨_, -, heq⟩ := Option.map_eq_some_iff.mp hentry'
  exact (Prod.mk.inj heq).1.symm

/-- The ids of the listed blocks are those under which there is a block. -/
theorem mem_ids : id ∈ g.blocks.map (·.1) ↔ g.Live id := by
  constructor
  · intro hid
    obtain ⟨entry, hentry, rfl⟩ := List.mem_map.mp hid
    simp [Live, mem_blocks.mp hentry]
  · intro hid
    obtain ⟨b, hb⟩ := Option.isSome_iff_exists.mp hid
    exact List.mem_map.mpr ⟨(id, b), mem_blocks.mpr hb, rfl⟩

theorem ids_nodup (g : Graph) : (g.blocks.map (·.1)).Nodup := by
  refine g.blocks_nodup.map_on fun entry hentry other hother heq => ?_
  have hblock := (mem_blocks.mp hentry).symm.trans (heq ▸ mem_blocks.mp hother)
  exact Prod.ext heq (Option.some.inj hblock)

/-- Diagrams with the same blocks under the ids handed out are the same up to grammar, roots and
recorded findings. -/
theorem eq_of_block? (hgrammar : g'.grammar = g.grammar) (hnext : g'.nextId = g.nextId)
    (hblock : ∀ id, g'.block? id = g.block? id) (hroots : g'.roots = g.roots)
    (hpinned : g'.pinned = g.pinned) : g' = g := by
  have hcells : g'.cells = g.cells := by
    refine Array.ext hnext fun id hid hid' => ?_
    simpa [block?, hid, hid'] using hblock id
  obtain ⟨grammar, cells, roots, pinned⟩ := g
  cases hgrammar
  cases hcells
  cases hroots
  cases hpinned
  rfl

/-! ## Single changes -/

@[simp]
theorem block?_empty (grammar : Grammar) (id : BlockId) : (empty grammar).block? id = none := by
  simp [block?, empty]

/-- A new block has the next id and the fields its kind begins with; the others stay. -/
theorem block?_insert (g : Graph) (kind : BlockKind) (id : BlockId) :
    (g.insert kind).block? id =
      if id = g.nextId then some ⟨kind, g.grammar.defaults kind, .empty, none, none⟩
      else g.block? id := by
  simp only [block?, insert, nextId, Array.getElem?_push]
  by_cases h : id = g.cells.size <;> simp [h]

/-- A change of one block leaves the others as they are. -/
theorem block?_modify (g : Graph) (target : BlockId) (f : Block → Block) (id : BlockId) :
    (g.modify target f).block? id = (g.block? id).map fun b => if id = target then f b else b := by
  unfold modify
  cases h : g.block? target with
  | none =>
      by_cases hid : id = target
      · simp [hid, h]
      · simp [hid]
  | some b =>
      have hlt : target < g.cells.size := Live.lt_nextId (g := g) (by simp [Live, h])
      simp only [block?] at h ⊢
      rw [Array.getElem?_setIfInBounds]
      by_cases hid : id = target
      · subst hid
        rw [if_pos rfl, if_pos hlt, h]
        simp
      · simp [hid, Ne.symm hid]

/-- Erased blocks are gone and the others stay. -/
theorem block?_erase (g : Graph) (gone : List BlockId) (id : BlockId) :
    (g.erase gone).block? id = if id ∈ gone then none else g.block? id := by
  simp only [block?, erase, Array.getElem?_mapIdx, List.contains_iff_mem]
  cases g.cells[id]? <;> by_cases h : id ∈ gone <;> simp [h]

@[simp]
theorem nextId_insert (g : Graph) (kind : BlockKind) :
    (g.insert kind).nextId = g.nextId + 1 := by
  simp [nextId, insert]

@[simp]
theorem nextId_modify (g : Graph) (target : BlockId) (f : Block → Block) :
    (g.modify target f).nextId = g.nextId := by
  unfold modify
  split <;> simp [nextId]

@[simp]
theorem grammar_modify (g : Graph) (target : BlockId) (f : Block → Block) :
    (g.modify target f).grammar = g.grammar := by
  unfold modify
  split <;> rfl

@[simp]
theorem roots_modify (g : Graph) (target : BlockId) (f : Block → Block) :
    (g.modify target f).roots = g.roots := by
  unfold modify
  split <;> rfl

@[simp]
theorem pinned_modify (g : Graph) (target : BlockId) (f : Block → Block) :
    (g.modify target f).pinned = g.pinned := by
  unfold modify
  split <;> rfl

/-! ## Links -/

/-- The diagram with both ends of one link and the roots set anew. -/
def relink (g : Graph) (parent : BlockId) (socket : SocketName) (child : BlockId)
    (content : Option BlockId) (place : Option (BlockId × SocketName)) (roots : List BlockId) :
    Graph :=
  { (g.modify parent fun b => { b with inputs := b.inputs.set content socket }).modify child
      fun b => { b with parent := place } with
    roots := roots }

/-- The diagram with `child` in a socket of `parent`. -/
def plug (g : Graph) (parent : BlockId) (socket : SocketName) (child : BlockId) : Graph :=
  g.relink parent socket child (some child) (some (parent, socket)) (g.roots.filter (· != child))

/-- The diagram without the link from a socket of `parent` to `child`, which becomes a root. -/
def unplug (g : Graph) (parent : BlockId) (socket : SocketName) (child : BlockId) : Graph :=
  g.relink parent socket child none none (g.roots ++ [child])

/-- What a new link needs: a socket that accepts the child and is free, and a child that is a
root and not above the parent. -/
structure Pluggable (g : Graph) (parent : BlockId) (socket : SocketName) (child : BlockId) :
    Prop where
  accepted : ∃ p c, g.kind? parent = some p ∧ g.kind? child = some c ∧
    g.grammar.accepts p socket c = true
  loose : g.parent? child = none
  free : g.child? parent socket = none
  apart : g.isAncestor child parent = false

/-- What a new link needs, told from the two blocks. -/
theorem pluggable_iff {p c : Block} (hp : g.block? parent = some p)
    (hc : g.block? child = some c) :
    g.Pluggable parent socket child ↔
      g.grammar.accepts p.kind socket c.kind = true ∧ c.parent = none ∧
        p.inputs.get? socket = none ∧ g.isAncestor child parent = false := by
  have hkp : g.kind? parent = some p.kind := by simp [kind?, hp]
  have hkc : g.kind? child = some c.kind := by simp [kind?, hc]
  have hloose : g.parent? child = c.parent := by simp [parent?, hc]
  have hfree : g.child? parent socket = p.inputs.get? socket := by simp [child?, hp]
  constructor
  · rintro ⟨⟨_, _, hp', hc', haccepts⟩, h1, h2, h3⟩
    obtain rfl := Option.some.inj (hkp.symm.trans hp')
    obtain rfl := Option.some.inj (hkc.symm.trans hc')
    exact ⟨haccepts, hloose ▸ h1, hfree ▸ h2, h3⟩
  · rintro ⟨haccepts, h1, h2, h3⟩
    exact ⟨⟨_, _, hkp, hkc, haccepts⟩, hloose ▸ h1, hfree ▸ h2, h3⟩

/-- A link is made exactly when it can be, and then it is all that changes. -/
theorem connect_eq_ok_iff :
    g.connect parent socket child = .ok g' ↔
      g.Pluggable parent socket child ∧ g' = g.plug parent socket child := by
  unfold connect require
  cases hp : g.block? parent with
  | none =>
      refine ⟨nofun, fun ⟨h, _⟩ => ?_⟩
      obtain ⟨_, _, hkind, -⟩ := h.accepted
      simp [kind?, hp] at hkind
  | some p =>
      cases hc : g.block? child with
      | none =>
          refine ⟨nofun, fun ⟨h, _⟩ => ?_⟩
          obtain ⟨_, _, -, hkind, -⟩ := h.accepted
          simp [kind?, hc] at hkind
      | some c =>
          rw [pluggable_iff hp hc]
          simp only [bind, Except.bind, pure, Except.pure, throw, throwThe, MonadExceptOf.throw,
            Grammar.accepts, Grammar.accepted]
          cases hs : g.grammar.socket? p.kind socket with
          | none => simp
          | some spec =>
              -- The checks in the order in which they are made.
              by_cases h1 : c.kind ∈ spec.accepts
              · by_cases h2 : c.parent = none
                · by_cases h3 : p.inputs.get? socket = none
                  · by_cases h4 : g.isAncestor child parent = true
                    · simp [h1, h2, h3, h4]
                    · simp [h1, h2, h3, h4, plug, relink, eq_comm]
                  · simp [h1, h2, h3, Option.isSome_iff_ne_none]
                · simp [h1, h2, Option.isSome_iff_ne_none]
              · simp [h1]

/-- A block is detached exactly when it is plugged in, and its place is told. -/
theorem disconnect_eq_ok_iff {place : BlockId × SocketName} :
    g.disconnect child = .ok (place, g') ↔
      g.parent? child = some place ∧ g' = g.unplug place.1 place.2 child := by
  unfold disconnect require
  cases hc : g.block? child with
  | none => exact ⟨nofun, fun ⟨h, _⟩ => by simp [parent?, hc] at h⟩
  | some c =>
      have hparent : g.parent? child = c.parent := by simp [parent?, hc]
      rw [hparent]
      simp only [bind, Except.bind, pure, Except.pure, throw, throwThe, MonadExceptOf.throw]
      cases hp : c.parent with
      | none => simp
      | some found =>
          simp only [Except.ok.injEq, Prod.mk.injEq, Option.some.injEq, unplug, relink]
          constructor
          · rintro ⟨rfl, rfl⟩
            exact ⟨rfl, rfl⟩
          · rintro ⟨rfl, rfl⟩
            exact ⟨rfl, rfl⟩

/-- The diagram in which a block has been unplugged, if it was plugged in. -/
def loosen (g : Graph) (id : BlockId) : Graph :=
  match g.parent? id with
  | none => g
  | some (parent, socket) => g.unplug parent socket id

/-- A block that is there is unplugged and then erased with all that is below it. -/
theorem remove_eq_ok_iff {gone : List BlockId} :
    g.remove id = .ok (gone, g') ↔
      g.Live id ∧ gone = (g.loosen id).descendants id ∧ g' = (g.loosen id).erase gone := by
  unfold remove require
  cases hb : g.block? id with
  | none => exact ⟨nofun, fun ⟨h, _⟩ => by simp [Live, hb] at h⟩
  | some b =>
      have hlive : g.Live id := by simp [Live, hb]
      have hparent : g.parent? id = b.parent := by simp [parent?, hb]
      simp only [bind, Except.bind, pure, Except.pure, hlive, true_and]
      cases hp : b.parent with
      | none =>
          have hloosen : g.loosen id = g := by simp [loosen, hparent, hp]
          simp only [hloosen, Option.isSome_none, Bool.false_eq_true, if_false, Except.ok.injEq,
            Prod.mk.injEq]
          constructor
          · rintro ⟨rfl, rfl⟩
            exact ⟨rfl, rfl⟩
          · rintro ⟨rfl, rfl⟩
            exact ⟨rfl, rfl⟩
      | some place =>
          have hdisconnect : g.disconnect id = .ok (place, g.unplug place.1 place.2 id) :=
            disconnect_eq_ok_iff.mpr ⟨hparent.trans hp, rfl⟩
          have hloosen : g.loosen id = g.unplug place.1 place.2 id := by simp [loosen, hparent, hp]
          simp only [hloosen, hdisconnect, Option.isSome_some, if_true, Except.ok.injEq,
            Prod.mk.injEq]
          constructor
          · rintro ⟨rfl, rfl⟩
            exact ⟨rfl, rfl⟩
          · rintro ⟨rfl, rfl⟩
            exact ⟨rfl, rfl⟩

/-! ## Fields and coordinates -/

/-- A value is put into a field exactly when the grammar takes it for the kind of the block. -/
theorem setField_eq_ok_iff {name : String} {value : FieldValue} :
    g.setField id name value = .ok g' ↔
      (∃ kind, g.kind? id = some kind ∧ g.grammar.checkField kind name value = .ok ()) ∧
        g' = g.modify id fun b => { b with fields := b.fields.insert name value } := by
  unfold setField require
  cases hb : g.block? id with
  | none => exact ⟨nofun, fun ⟨⟨_, h, _⟩, _⟩ => by simp [kind?, hb] at h⟩
  | some b =>
      have hkind : g.kind? id = some b.kind := by simp [kind?, hb]
      simp only [bind, Except.bind, pure, Except.pure, throw, throwThe, MonadExceptOf.throw, hkind,
        Option.some.injEq, exists_eq_left']
      cases hcheck : g.grammar.checkField b.kind name value <;> simp [eq_comm]

/-- A field of a block that is there can be removed, and its value is told. -/
theorem clearField_eq_ok_iff {name : String} {old : Option FieldValue} :
    g.clearField id name = .ok (old, g') ↔
      (∃ b, g.block? id = some b ∧ old = b.field? name) ∧
        g' = g.modify id fun b => { b with fields := b.fields.erase name } := by
  unfold clearField require
  cases hb : g.block? id with
  | none => exact ⟨nofun, fun ⟨⟨_, h, _⟩, _⟩ => by simp at h⟩
  | some b => simp [bind, Except.bind, pure, Except.pure, eq_comm]

/-- A block that is there can be put anywhere. -/
theorem setPosition_eq_ok_iff {position : Position} :
    g.setPosition id position = .ok g' ↔
      g.Live id ∧ g' = g.modify id fun b => { b with position := some position } := by
  unfold setPosition require
  cases hb : g.block? id with
  | none => exact ⟨nofun, fun ⟨h, _⟩ => by simp [Live, hb] at h⟩
  | some b => simp [bind, Except.bind, pure, Except.pure, Live, hb, eq_comm]

/-! ## Parts of a build

A part of a build makes an edit or, where the edit is refused, records that or does nothing. What it
does is told apart here once, so that what a part keeps is shown for these outcomes alone. -/

/-- A link that can be made is made. -/
theorem link_eq_plug (h : g.Pluggable parent socket child) :
    Build.link parent socket child g = ((), g.plug parent socket child) := by
  rw [Build.link, connect_eq_ok_iff.mpr ⟨h, rfl⟩]

/-- A link that cannot be made is recorded at the child. -/
theorem link_eq_pin_of_not_pluggable {p c : BlockKind} (hp : g.kind? parent = some p)
    (hc : g.kind? child = some c) (h : ¬ g.Pluggable parent socket child) :
    Build.link parent socket child g =
      ((), g.pin (.about child (.rejectedLink p socket c))) := by
  unfold Build.link
  cases hconnect : g.connect parent socket child with
  | ok linked => exact absurd (connect_eq_ok_iff.mp hconnect).1 h
  | error => simp [hp, hc]

/-- A link the grammar refuses is recorded at the child. -/
theorem link_eq_pin {p c : BlockKind} (hp : g.kind? parent = some p) (hc : g.kind? child = some c)
    (hrefused : g.grammar.accepts p socket c = false) :
    Build.link parent socket child g =
      ((), g.pin (.about child (.rejectedLink p socket c))) := by
  apply link_eq_pin_of_not_pluggable hp hc
  intro hplug
  obtain ⟨_, _, hp', hc', haccepts⟩ := hplug.accepted
  obtain rfl := Option.some.inj (hp.symm.trans hp')
  obtain rfl := Option.some.inj (hc.symm.trans hc')
  rw [hrefused] at haccepts
  cases haccepts

/-- A link without one of its ends is neither made nor recorded. -/
theorem link_eq_self (h : g.kind? parent = none ∨ g.kind? child = none) :
    Build.link parent socket child g = ((), g) := by
  unfold Build.link
  cases hconnect : g.connect parent socket child with
  | ok linked =>
      obtain ⟨p, c, hp, hc, -⟩ := (connect_eq_ok_iff.mp hconnect).1.accepted
      simp [hp, hc] at h
  | error => rcases h with h | h <;> simp [h]

/-- A link is made, or recorded at the child as refused, or lacks one of its ends and is nothing. -/
theorem link_cases (g : Graph) (parent : BlockId) (socket : SocketName) (child : BlockId) :
    (g.Pluggable parent socket child ∧
        Build.link parent socket child g = ((), g.plug parent socket child)) ∨
      (∃ p c, g.kind? parent = some p ∧ g.kind? child = some c ∧
        ¬ g.Pluggable parent socket child ∧
        Build.link parent socket child g =
          ((), g.pin (.about child (.rejectedLink p socket c)))) ∨
      ((g.kind? parent = none ∨ g.kind? child = none) ∧
        Build.link parent socket child g = ((), g)) := by
  by_cases hplug : g.Pluggable parent socket child
  · exact .inl ⟨hplug, link_eq_plug hplug⟩
  · cases hp : g.kind? parent with
    | none => exact .inr (.inr ⟨.inl rfl, link_eq_self (.inl hp)⟩)
    | some p =>
        cases hc : g.kind? child with
        | none => exact .inr (.inr ⟨.inr rfl, link_eq_self (.inr hc)⟩)
        | some c =>
            exact .inr (.inl ⟨p, c, rfl, rfl, hplug, link_eq_pin_of_not_pluggable hp hc hplug⟩)

/-- A value that the grammar takes is put into its field. -/
theorem set_eq_modify {kind : BlockKind} {name : String} {value : FieldValue}
    (hkind : g.kind? id = some kind) (hvalue : g.grammar.checkField kind name value = .ok ()) :
    Build.set id name value g =
      ((), g.modify id fun b => { b with fields := b.fields.insert name value }) := by
  rw [Build.set, setField_eq_ok_iff.mpr ⟨⟨kind, hkind, hvalue⟩, rfl⟩]

/-- A value is put into its field, or what is wrong with it is recorded at the block. -/
theorem set_cases (g : Graph) (id : BlockId) (name : String) (value : FieldValue) :
    (∃ kind, g.kind? id = some kind ∧ g.grammar.checkField kind name value = .ok () ∧
        Build.set id name value g =
          ((), g.modify id fun b => { b with fields := b.fields.insert name value })) ∨
      ∃ error, g.setField id name value = .error error ∧
        Build.set id name value g =
          ((), g.pin (.about id (.invalidField name (Build.dropReason error)))) := by
  cases hset : g.setField id name value with
  | ok changed =>
      obtain ⟨⟨kind, hkind, hvalue⟩, -⟩ := setField_eq_ok_iff.mp hset
      exact .inl ⟨kind, hkind, hvalue, set_eq_modify hkind hvalue⟩
  | error error => exact .inr ⟨error, rfl, by rw [Build.set, hset]⟩

theorem clear_eq_modify (hid : g.Live id) (name : String) :
    Build.clear id name g =
      ((), g.modify id fun b => { b with fields := b.fields.erase name }) := by
  obtain ⟨b, hb⟩ := Option.isSome_iff_exists.mp hid
  rw [Build.clear, clearField_eq_ok_iff.mpr ⟨⟨b, hb, rfl⟩, rfl⟩]

/-- A field is removed from a block that is there, and nothing happens without the block. -/
theorem clear_cases (g : Graph) (id : BlockId) (name : String) :
    (g.Live id ∧ Build.clear id name g =
        ((), g.modify id fun b => { b with fields := b.fields.erase name })) ∨
      (¬ g.Live id ∧ Build.clear id name g = ((), g)) := by
  by_cases hid : g.Live id
  · exact .inl ⟨hid, clear_eq_modify hid name⟩
  · have hgone : g.block? id = none := by simpa [Live] using hid
    refine .inr ⟨hid, ?_⟩
    simp [Build.clear, clearField, require, hgone, bind, Except.bind]

/-! ## What changes show -/

/-- Inserting a block gives a kind to the next id only. -/
theorem kind?_insert (g : Graph) (kind : BlockKind) (id : BlockId) :
    (g.insert kind).kind? id = if id = g.nextId then some kind else g.kind? id := by
  rw [kind?, block?_insert]
  split <;> rfl

/-- A new block has nothing plugged in, so all sockets hold what they held. -/
theorem child?_insert (g : Graph) (kind : BlockKind) (id : BlockId) (socket : SocketName) :
    (g.insert kind).child? id socket = g.child? id socket := by
  rw [child?, block?_insert]
  split
  next h => simp [child?, block?_eq_none (Nat.le_of_eq h.symm)]
  next => rfl

/-- A new block is plugged in nowhere. -/
theorem parent?_insert (g : Graph) (kind : BlockKind) (id : BlockId) :
    (g.insert kind).parent? id = g.parent? id := by
  rw [parent?, block?_insert]
  split
  next h => simp [parent?, block?_eq_none (Nat.le_of_eq h.symm)]
  next => rfl

/-- A new block shows its kind and the fields it begins with. -/
theorem face?_insert (g : Graph) (kind : BlockKind) (id : BlockId) :
    (g.insert kind).face? id =
      if id = g.nextId then some ⟨kind, g.grammar.defaults kind, .empty⟩ else g.face? id := by
  rw [face?, block?_insert]
  split <;> rfl

/-- Setting a link anew touches the sockets of the parent and the place of the child. -/
theorem block?_relink (g : Graph) (parent : BlockId) (socket : SocketName) (child : BlockId)
    (content : Option BlockId) (place : Option (BlockId × SocketName)) (roots : List BlockId)
    (id : BlockId) :
    (g.relink parent socket child content place roots).block? id = (g.block? id).map fun b =>
      { b with
        inputs := if id = parent then b.inputs.set content socket else b.inputs
        parent := if id = child then place else b.parent } := by
  change ((g.modify parent _).modify child _).block? id = _
  rw [block?_modify, block?_modify, Option.map_map]
  congr 1
  funext b
  dsimp only [Function.comp]
  split <;> split <;> rfl

section Relink

variable (g : Graph) (parent : BlockId) (socket : SocketName) (child : BlockId)
  (content : Option BlockId) (place : Option (BlockId × SocketName)) (roots : List BlockId)

@[simp]
theorem kind?_relink (id : BlockId) :
    (g.relink parent socket child content place roots).kind? id = g.kind? id := by
  rw [kind?, block?_relink, Option.map_map]
  rfl

/-- Of all sockets only that of the link has another content. -/
theorem child?_relink (hparent : g.Live parent) (id : BlockId) (other : SocketName) :
    (g.relink parent socket child content place roots).child? id other =
      if id = parent ∧ other = socket then content else g.child? id other := by
  rw [child?, block?_relink, Option.bind_map]
  by_cases hid : id = parent
  · subst hid
    obtain ⟨b, hb⟩ := Option.isSome_iff_exists.mp hparent
    by_cases hs : other = socket <;> simp [child?, hb, hs, Sockets.get?_set]
  · rw [if_neg fun h => hid h.1]
    simp only [if_neg hid]
    rfl

/-- Of all blocks only the child of the link has another place. -/
theorem parent?_relink (hchild : g.Live child) (id : BlockId) :
    (g.relink parent socket child content place roots).parent? id =
      if id = child then place else g.parent? id := by
  rw [parent?, block?_relink, Option.bind_map]
  by_cases hid : id = child
  · subst hid
    obtain ⟨b, hb⟩ := Option.isSome_iff_exists.mp hchild
    simp [hb]
  · simp only [if_neg hid]
    rfl

/-- What a block shows depends on its own sockets and not on its place. -/
theorem face?_relink (id : BlockId) :
    (g.relink parent socket child content place roots).face? id = (g.face? id).map fun f =>
      if id = parent then { f with inputs := f.inputs.set content socket } else f := by
  rw [face?, block?_relink, face?, Option.map_map, Option.map_map]
  congr 1
  funext b
  dsimp only [Function.comp, Block.face]
  split <;> rfl

@[simp]
theorem roots_relink : (g.relink parent socket child content place roots).roots = roots := rfl

@[simp]
theorem nextId_relink :
    (g.relink parent socket child content place roots).nextId = g.nextId := by
  change ((g.modify parent _).modify child _).nextId = _
  simp

@[simp]
theorem grammar_relink :
    (g.relink parent socket child content place roots).grammar = g.grammar := by
  change ((g.modify parent _).modify child _).grammar = _
  simp

@[simp]
theorem pinned_relink :
    (g.relink parent socket child content place roots).pinned = g.pinned := by
  change ((g.modify parent _).modify child _).pinned = _
  simp

end Relink

/-! Changes of fields and coordinates leave kinds and links alone. -/

section Modify

variable {f : Block → Block} (target : BlockId)

theorem kind?_modify (hf : ∀ b, (f b).kind = b.kind) (id : BlockId) :
    (g.modify target f).kind? id = g.kind? id := by
  rw [kind?, block?_modify, Option.map_map, kind?]
  congr 1
  funext b
  dsimp only [Function.comp]
  split
  · exact hf b
  · rfl

theorem child?_modify (hf : ∀ b, (f b).inputs = b.inputs) (id : BlockId) (socket : SocketName) :
    (g.modify target f).child? id socket = g.child? id socket := by
  rw [child?, block?_modify, Option.bind_map, child?]
  congr 1
  funext b
  dsimp only [Function.comp]
  split
  · rw [hf b]
  · rfl

theorem parent?_modify (hf : ∀ b, (f b).parent = b.parent) (id : BlockId) :
    (g.modify target f).parent? id = g.parent? id := by
  rw [parent?, block?_modify, Option.bind_map, parent?]
  congr 1
  funext b
  dsimp only [Function.comp]
  split
  · exact hf b
  · rfl

end Modify

theorem kind?_erase (g : Graph) (gone : List BlockId) (id : BlockId) :
    (g.erase gone).kind? id = if id ∈ gone then none else g.kind? id := by
  rw [kind?, block?_erase]
  split <;> rfl

theorem child?_erase (g : Graph) (gone : List BlockId) (id : BlockId) (socket : SocketName) :
    (g.erase gone).child? id socket = if id ∈ gone then none else g.child? id socket := by
  rw [child?, block?_erase]
  split <;> rfl

theorem parent?_erase (g : Graph) (gone : List BlockId) (id : BlockId) :
    (g.erase gone).parent? id = if id ∈ gone then none else g.parent? id := by
  rw [parent?, block?_erase]
  split <;> rfl

end Graph

end TaskDiagram
