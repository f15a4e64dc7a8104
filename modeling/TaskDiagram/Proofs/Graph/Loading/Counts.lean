import TaskDiagram.Proofs.Graph.Loading.Logic
import TaskDiagram.Proofs.Graph.Loading.Pieces

/-! # Counting what is built

How many blocks a part of a program is loaded into does not depend on the diagram it is loaded into,
nor on what is refused there, so the ids of its blocks are known beforehand. What was found before
stays recorded, whatever is built later.
-/

namespace TaskDiagram

open TaskDiagram.Tree (total)

/-- Where no kind of finding is new, no finding is. -/
theorem Graph.Extends.pinned_eq {g g' g'' : Graph} {touched touched' : Nat → Prop}
    {found : List WarningKind} (h : g.Extends g' touched found)
    (h' : g.Extends g'' touched' found) (hlater : g'.pinned <+: g''.pinned) :
    g''.pinned = g'.pinned := by
  have hlength := congrArg List.length (h.pinned.trans h'.pinned.symm)
  rw [List.length_map, List.length_map] at hlength
  exact (hlater.eq_of_length hlength).symm

namespace Build

variable {α β : Type}

/-- In any diagram a build makes this many blocks and takes back no finding. -/
def Grows (m : Build α) (count : Nat) : Prop :=
  ∀ g : Graph, (m g).2.nextId = g.nextId + count ∧ g.pinned <+: (m g).2.pinned

/-! ## Parts -/

theorem grows_pure (a : α) : Grows (pure a) 0 := fun _ => ⟨rfl, List.prefix_rfl⟩

/-- The blocks of two builds in sequence add up, if the second does not depend on the first. -/
theorem grows_bind {m : Build α} {f : α → Build β} {first second : Nat} (hm : Grows m first)
    (hf : ∀ a, Grows (f a) second) : Grows (m >>= f) (first + second) := by
  intro g
  obtain ⟨hnext, hpinned⟩ := hm g
  obtain ⟨hnext', hpinned'⟩ := hf (m g).1 (m g).2
  rw [hnext] at hnext'
  exact ⟨hnext'.trans (Nat.add_assoc ..), hpinned.trans hpinned'⟩

/-- What makes no blocks does not count. -/
theorem Grows.then {m : Build α} {f : α → Build β} {count : Nat} (hm : Grows m count)
    (hf : ∀ a, Grows (f a) 0) : Grows (m >>= f) count := grows_bind hm hf

theorem grows_insert (kind : BlockKind) : Grows (insert kind) 1 :=
  fun g => ⟨Graph.nextId_insert g kind, List.prefix_rfl⟩

theorem grows_pin (w : Warning) : Grows (pin w) 0 := fun _ => ⟨rfl, List.prefix_append _ _⟩

/-- A link makes no block, and where it is refused a finding more. -/
theorem grows_link (parent : BlockId) (socket : SocketName) (child : BlockId) :
    Grows (link parent socket child) 0 := by
  intro g
  obtain ⟨-, hlink⟩ | ⟨_, _, -, -, -, hlink⟩ | ⟨-, hlink⟩ :=
    Graph.link_cases g parent socket child <;> rw [hlink]
  · have hpinned : (g.plug parent socket child).pinned = g.pinned :=
      Graph.pinned_relink _ _ _ _ _ _ _
    exact ⟨Graph.nextId_relink _ _ _ _ _ _ _, hpinned ▸ List.prefix_rfl⟩
  · exact grows_pin _ g
  · exact grows_pure () g

theorem grows_modify (g : Graph) (target : BlockId) (f : Block → Block) :
    (g.modify target f).nextId = g.nextId + 0 ∧ g.pinned <+: (g.modify target f).pinned :=
  ⟨Graph.nextId_modify g target f, (Graph.pinned_modify g target f) ▸ List.prefix_rfl⟩

/-- A field makes no block, and where it is refused a finding more. -/
theorem grows_set (id : BlockId) (name : String) (value : FieldValue) :
    Grows (set id name value) 0 := by
  intro g
  obtain ⟨_, -, -, hset⟩ | ⟨_, -, hset⟩ := Graph.set_cases g id name value <;> rw [hset]
  · exact grows_modify g _ _
  · exact grows_pin _ g

theorem grows_clear (id : BlockId) (name : String) : Grows (clear id name) 0 := by
  intro g
  obtain ⟨-, hclear⟩ | ⟨-, hclear⟩ := Graph.clear_cases g id name <;> rw [hclear]
  · exact grows_modify g _ _
  · exact grows_pure () g

/-! ## Steps -/

/-- A reference makes one block, or none when it is blank. -/
theorem grows_reference (kind : LibraryKind) (r : Reference) :
    Grows (reference kind r) (total (r.tree? kind).toList) := by
  obtain ⟨name, id⟩ := r
  have hnew : Grows (insert (.ofEntity kind)) 1 := grows_insert _
  unfold reference
  cases name <;> cases id
  · exact grows_pure none
  · exact hnew.then fun _ => (grows_set _ _ _).then fun _ => grows_pure _
  · exact hnew.then fun _ => (grows_set _ _ _).then fun _ => grows_pure _
  · exact hnew.then fun _ => (grows_set _ _ _).then fun _ => (grows_set _ _ _).then fun _ =>
      grows_pure _

theorem grows_withReference (kind : BlockKind) (entity : LibraryKind) (r : Reference) :
    Grows (withReference kind entity r) (Tree.holding kind entity r).size := by
  have hsize : (Tree.holding kind entity r).size = 1 + (total (r.tree? entity).toList + 0) := by
    rw [Tree.holding, Tree.size_plug]
    rfl
  rw [hsize]
  refine grows_bind (grows_insert kind) fun block => ?_
  refine grows_bind (grows_reference entity r) fun item => ?_
  cases item with
  | none => exact grows_pure block
  | some item => exact (grows_link _ _ _).then fun _ => grows_pure block

/-- What the members of a list make adds up. -/
theorem grows_mapM {f : α → Build β} {count : α → Nat} (hf : ∀ a, Grows (f a) (count a))
    (l : List α) : Grows (l.mapM f) (l.map count).sum := by
  induction l with
  | nil => exact grows_pure []
  | cons a rest ih =>
      rw [List.mapM_cons, List.map_cons, List.sum_cons]
      exact grows_bind (hf a) fun _ => ih.then fun _ => grows_pure _

theorem grows_linkChain (ids : List BlockId) : Grows (linkChain ids) 0 := by
  induction ids with
  | nil => exact grows_pure ()
  | cons first rest ih =>
      cases rest with
      | nil => exact grows_pure ()
      | cons second rest => exact (grows_link _ _ _).then fun _ => ih

/-- Steps make a block each, and one for each reference in which something is set. -/
theorem grows_steps (s : Steps) : Grows (steps s) s.blockCount := by
  have hstep := fun entry : StepKind × Reference =>
    grows_withReference (.ofStep entry.1) entry.1.entity entry.2
  have hcount : s.blockCount = (s.toList.map fun entry =>
      (Tree.holding (.ofStep entry.1) entry.1.entity entry.2).size).sum := by
    rw [Steps.blockCount, total, Steps.trees, List.map_map]
    rfl
  rw [hcount]
  exact (grows_mapM hstep s.toList).then fun chain =>
    (grows_linkChain chain).then fun _ => grows_pure chain

/-- The steps of a branch are made whether its socket accepts them or not. -/
theorem grows_branch (owner : BlockId) (socket : SocketName) (s : Steps) :
    Grows (branch owner socket s) s.blockCount := by
  refine (grows_steps s).then fun chain => ?_
  cases chain with
  | nil => exact grows_pure ()
  | cons head => exact grows_link owner socket head

/-! ## Controls -/

theorem grows_repeatCount (id : BlockId) (times : Option Int64) :
    Grows (repeatCount id times) 0 := by
  cases times with
  | none => exact grows_clear id fieldTimes
  | some times =>
      have hget : Grows (get : Build Graph) 0 := fun g => grows_pure g g
      refine hget.then fun g => ?_
      dsimp only
      split
      · exact (grows_pin _).then fun _ => grows_set _ _ _
      · exact grows_set _ _ _

/-- An event of a known type makes its block and at most one for what it searches. -/
theorem grows_event (owner : BlockId) (e : Event) :
    Grows (event owner e) (total e.tree?.toList) := by
  obtain ⟨type, target⟩ := e
  unfold event Event.tree?
  cases type with
  | none => exact grows_pure ()
  | some type =>
      cases type with
      | other value => exact grows_pin _
      | sensor => exact (grows_insert _).then fun _ => grows_link _ _ _
      | human => exact (grows_insert _).then fun _ => grows_link _ _ _
      | findObject => exact (grows_withReference _ _ _).then fun _ => grows_link _ _ _

/-- A logic block makes no block but those of its event before its branches are filled. -/
theorem grows_equip (id : BlockId) {kind : BlockKind} (hlogic : kind ∈ Grammar.logicKinds)
    (c : Control) : Grows (equip id kind c) (total ((c.guard? kind).bind Event.tree?).toList) := by
  obtain ⟨type, times, event, otherwise, steps⟩ := c
  cases kind with
  | loop => exact grows_pure ()
  | repeated => exact grows_repeatCount id times
  | when =>
      cases event with
      | none => exact grows_pure ()
      | some e => exact grows_event id e
  | whenOtherwise =>
      cases event with
      | none => exact grows_pure ()
      | some e => exact grows_event id e
  | _ => exact absurd hlogic (by decide)

end Build

end TaskDiagram
