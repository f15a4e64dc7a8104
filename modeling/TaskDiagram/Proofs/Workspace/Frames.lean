import TaskDiagram.Proofs.Graph.Building
import TaskDiagram.Proofs.Workspace.Trees

/-! # What loading a workspace leaves alone

Loading a node touches no block that was there before, and placing blocks on the canvas changes
nothing but coordinates.
-/

namespace TaskDiagram

/-! ## Older blocks -/

namespace Build

variable {α β : Type} {n : Nat} {id parent child : BlockId} {name : String}

/-- The build leaves the blocks below an id as they are, and no id is handed out again. -/
def Spares (n : Nat) (m : Build α) : Prop :=
  ∀ g : Graph, n ≤ g.nextId → n ≤ (m g).2.nextId ∧ ∀ id < n, (m g).2.block? id = g.block? id

theorem spares_pure (a : α) : Spares n (pure a) := fun _ h => ⟨h, fun _ _ => rfl⟩

/-- Builds that spare the older blocks do so one after the other. -/
theorem spares_bind {m : Build α} {f : α → Build β} (hm : Spares n m)
    (hf : ∀ g : Graph, n ≤ g.nextId → Spares n (f (m g).1)) : Spares n (m >>= f) := by
  intro g h
  obtain ⟨hfirst, hsame⟩ := hm g h
  obtain ⟨hsecond, hsame'⟩ := hf g h (m g).2 hfirst
  exact ⟨hsecond, fun id hid => (hsame' id hid).trans (hsame id hid)⟩

theorem spares_forM {f : α → Build Unit} {l : List α} (hf : ∀ a ∈ l, Spares n (f a)) :
    Spares n (l.forM f) := by
  induction l with
  | nil => exact spares_pure ()
  | cons a rest ih =>
      exact spares_bind (hf a List.mem_cons_self) fun _ _ =>
        ih fun b hb => hf b (List.mem_cons_of_mem _ hb)

/-- A change of one block. -/
theorem spares_modify (h : n ≤ id) (f : Block → Block) :
    Spares n fun g : Graph => ((), g.modify id f) := by
  intro g hn
  refine ⟨by rwa [Graph.nextId_modify], fun other hother => ?_⟩
  rw [Graph.block?_modify]
  simp [Nat.ne_of_lt (Nat.lt_of_lt_of_le hother h)]

theorem spares_insert (kind : BlockKind) : Spares n (insert kind) := by
  intro g hn
  refine ⟨?_, fun id hid => ?_⟩
  · change n ≤ (g.insert kind).nextId
    rw [Graph.nextId_insert]
    exact Nat.le_succ_of_le hn
  · change (g.insert kind).block? id = _
    rw [Graph.block?_insert, if_neg (Nat.ne_of_lt (Nat.lt_of_lt_of_le hid hn))]

theorem spares_pin (w : Warning) : Spares n (pin w) := fun _ hn => ⟨hn, fun _ _ => rfl⟩

theorem spares_clear (h : n ≤ id) (name : String) : Spares n (clear id name) := by
  intro g hn
  obtain ⟨-, hclear⟩ | ⟨-, hclear⟩ := Graph.clear_cases g id name <;> rw [hclear]
  · exact spares_modify h _ g hn
  · exact spares_pure () g hn

theorem spares_set (h : n ≤ id) (name : String) (value : FieldValue) :
    Spares n (set id name value) := by
  intro g hn
  obtain ⟨_, -, -, hset⟩ | ⟨_, -, hset⟩ := Graph.set_cases g id name value <;> rw [hset]
  · exact spares_modify h _ g hn
  · exact spares_pin _ g hn

/-- A link between newer blocks spares the older ones. -/
theorem spares_link (hparent : n ≤ parent) (hchild : n ≤ child) (socket : SocketName) :
    Spares n (link parent socket child) := by
  intro g hn
  obtain ⟨-, hlink⟩ | ⟨_, _, -, -, -, hlink⟩ | ⟨-, hlink⟩ :=
    Graph.link_cases g parent socket child <;> rw [hlink]
  · refine ⟨by simpa [Graph.plug] using hn, fun id hid => ?_⟩
    have hne : id ≠ parent := Nat.ne_of_lt (Nat.lt_of_lt_of_le hid hparent)
    have hne' : id ≠ child := Nat.ne_of_lt (Nat.lt_of_lt_of_le hid hchild)
    simp [Graph.plug, Graph.block?_relink, hne, hne']
  · exact spares_pin _ g hn
  · exact spares_pure () g hn

theorem spares_loadField (h : n ≤ id) (name : String) (value : FieldValue) :
    Spares n (loadField id name value) := by
  refine spares_bind (fun g hn => ⟨hn, fun _ _ => rfl⟩) fun g _ => ?_
  split
  · exact spares_bind (spares_pin _) fun _ _ => spares_set h name _
  · exact spares_set h name value

/-- The fields of a newer block spare the older ones. -/
theorem spares_loadFields (h : n ≤ id) (fields : FieldMap) : Spares n (loadFields id fields) := by
  refine spares_bind (fun g hn => ⟨hn, fun _ _ => rfl⟩) fun g _ => ?_
  exact spares_bind (spares_forM fun entry _ => spares_clear h entry.1) fun _ _ =>
    spares_forM fun entry _ => spares_loadField h entry.1 entry.2

mutual

/-- Making a tree spares all blocks that were there before. -/
theorem spares_sketch : ∀ t : Tree, Spares n (sketch t)
  | .node kind fields inputs =>
      spares_bind (spares_insert kind) fun _ hid =>
        spares_bind (spares_loadFields hid fields) fun _ _ =>
          spares_bind (spares_sketchInputs inputs hid) fun _ _ => spares_pure _

/-- Filling the sockets of a newer block spares all blocks that were there before. -/
theorem spares_sketchInputs : ∀ (inputs : List (SocketName × Tree)) {owner : BlockId},
    n ≤ owner → Spares n (sketchInputs owner inputs)
  | [], _, _ => spares_pure ()
  | (socket, t) :: rest, _, howner =>
      spares_bind (spares_sketch t) fun g hg =>
        spares_bind (spares_link howner (sketch_fst t g ▸ hg) socket) fun _ _ =>
          spares_sketchInputs rest howner

end

theorem spares_place (h : n ≤ id) (x y : Option Float) : Spares n (place id x y) := by
  intro g hn
  unfold place
  split
  · exact spares_modify h _ g hn
  · exact ⟨hn, fun _ _ => rfl⟩

/-- The root of a node, put where the node stands. -/
theorem spares_root (root : Node) :
    Spares n (do place (← node root) root.x root.y : Build Unit) := by
  rw [node_eq_sketch]
  exact spares_bind (spares_sketch root.tree) fun g hg =>
    spares_place (sketch_fst root.tree g ▸ hg) root.x root.y

end Build

/-! ## Coordinates -/

/-- A block without its coordinates. -/
def Block.unplaced (b : Block) : Block := { b with position := none }

namespace Graph

variable {g g' g'' : Graph}

/-- The diagrams agree in all but coordinates. -/
structure Moved (g g' : Graph) : Prop where
  grammar : g'.grammar = g.grammar
  nextId : g'.nextId = g.nextId
  roots : g'.roots = g.roots
  pinned : g'.pinned = g.pinned
  block? : ∀ id, (g'.block? id).map Block.unplaced = (g.block? id).map Block.unplaced

theorem Moved.refl (g : Graph) : g.Moved g := ⟨rfl, rfl, rfl, rfl, fun _ => rfl⟩

theorem Moved.trans (h : g.Moved g') (h' : g'.Moved g'') : g.Moved g'' where
  grammar := h'.grammar.trans h.grammar
  nextId := h'.nextId.trans h.nextId
  roots := h'.roots.trans h.roots
  pinned := h'.pinned.trans h.pinned
  block? id := (h'.block? id).trans (h.block? id)

/-- A change of the position of a block is a move. -/
theorem moved_modify (g : Graph) (target : BlockId) (f : Block → Option Position) :
    g.Moved (g.modify target fun b => { b with position := f b }) where
  grammar := grammar_modify _ _ _
  nextId := nextId_modify _ _ _
  roots := roots_modify _ _ _
  pinned := pinned_modify _ _ _
  block? id := by
    rw [block?_modify, Option.map_map]
    congr 1
    funext b
    dsimp only [Function.comp]
    split <;> rfl

/-- Whatever does not look at coordinates is the same. -/
theorem Moved.map_block? {α : Type} (h : g.Moved g') {f : Block → α}
    (hf : ∀ b, f b.unplaced = f b) (id : BlockId) :
    (g'.block? id).map f = (g.block? id).map f := by
  have hsame := congrArg (Option.map f) (h.block? id)
  rw [Option.map_map, Option.map_map] at hsame
  simpa only [Function.comp_def, hf] using hsame

theorem Moved.kind? (h : g.Moved g') (id : BlockId) : g'.kind? id = g.kind? id :=
  h.map_block? (fun _ => rfl) id

theorem Moved.live_iff (h : g.Moved g') {id : BlockId} : g'.Live id ↔ g.Live id := by
  rw [live_iff_kind?, live_iff_kind?, h.kind?]

theorem Moved.face? (h : g.Moved g') (id : BlockId) : g'.face? id = g.face? id :=
  h.map_block? (fun _ => rfl) id

theorem Moved.child? (h : g.Moved g') (id : BlockId) (socket : SocketName) :
    g'.child? id socket = g.child? id socket := by
  rw [child?_eq_face?, child?_eq_face?, h.face?]

theorem Moved.parent? (h : g.Moved g') (id : BlockId) : g'.parent? id = g.parent? id := by
  have hsame := h.map_block? (f := Block.parent) (fun _ => rfl) id
  cases hb : g.block? id <;> cases hb' : g'.block? id <;> simp_all [Graph.parent?]

theorem Moved.isForest (h : g.Moved g') (hg : g.IsForest) : g'.IsForest :=
  hg.of_same_links h.grammar h.kind? h.child? h.parent? h.roots

/-- A move adds nothing, and touches no link. -/
theorem Moved.extends (h : g.Moved g') (hg : g.IsForest) : g.Extends g' Untouched [] where
  forest := h.isForest hg
  grammar := h.grammar
  nextId_le := Nat.le_of_eq h.nextId.symm
  face? id _ _ := h.face? id
  pinned := by rw [h.pinned, List.append_nil]

/-- Where a block stands on the canvas. -/
def position? (g : Graph) (id : BlockId) : Option Position := (g.block? id).bind (·.position)

/-- Placing one block moves it. -/
theorem moved_place (g : Graph) (id : BlockId) (x y : Option Float) :
    g.Moved (Build.place id x y g).2 := by
  unfold Build.place
  split
  · exact moved_modify g id fun _ => some _
  · exact .refl g

/-- A block that is there stands where it is put. -/
theorem position?_place {id : BlockId} (hid : g.Live id) (x y : Float) :
    (Build.place id (some x) (some y) g).2.position? id = some ⟨x, y⟩ := by
  obtain ⟨b, hb⟩ := Option.isSome_iff_exists.mp hid
  simp [Build.place, position?, block?_modify, hb]

/-- Placing the roots that have no coordinates moves blocks. -/
theorem moved_placeUnplaced (layout : Layout) (index : Nat) (roots : List BlockId) (g : Graph) :
    g.Moved (placeUnplaced layout index roots g) := by
  induction roots generalizing index g with
  | nil => exact .refl g
  | cons root rest ih =>
      exact (moved_modify g root fun b => b.position.or (layout.position index)).trans
        (ih (index + 1) _)

/-- Who has coordinates keeps them. -/
theorem position?_placeUnplaced (layout : Layout) (index : Nat) (roots : List BlockId)
    {g : Graph} {id : BlockId} {p : Position} (h : g.position? id = some p) :
    (placeUnplaced layout index roots g).position? id = some p := by
  induction roots generalizing index g with
  | nil => exact h
  | cons root rest ih =>
      apply ih
      obtain ⟨b, hb, hp⟩ := Option.bind_eq_some_iff.mp h
      rw [position?, block?_modify, hb]
      simp only [Option.map_some, Option.bind_some]
      split
      · simp [hp]
      · exact hp

end Graph

end TaskDiagram
