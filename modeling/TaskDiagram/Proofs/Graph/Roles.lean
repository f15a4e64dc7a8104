import TaskDiagram.Proofs.Graph.Renumbering
import TaskDiagram.Proofs.Graph.Saving
import TaskDiagram.Proofs.Graph.Subtrees

/-! # What blocks stand for

A block performs a step, names a library item, controls steps or is an event, and a step or an event
says by the reference plugged into it what it is about. In a forest every block is below exactly one
root, so what the blocks of a diagram stand for can be read off its trees.
-/

namespace TaskDiagram

/-- What a block stands for. -/
inductive Role where
  | step (kind : StepKind) (target : Option Reference)
  | item (kind : LibraryKind) (fields : FieldMap)
  | control (type : ControlType)
  | event (type : EventType) (target : Option Reference)

/-- What a block of a kind stands for, from its fields and the references plugged into it. -/
def BlockKind.role (kind : BlockKind) (fields : FieldMap)
    (held : LibraryKind → Option Reference) : Role :=
  match kind with
  | .pick => .step .pick (held .object)
  | .processing => .step .processing (held .action)
  | .place => .step .place (held .location)
  | .loop => .control .loop
  | .repeated => .control .repeated
  | .when => .control .when
  | .whenOtherwise => .control .whenOtherwise
  | .findObject => .event .findObject (held .object)
  | .sensorSignal => .event .sensor (held .object)
  | .humanFeedback => .event .human (held .object)
  | .objectRef => .item .object fields
  | .locationRef => .item .location fields
  | .actionRef => .item .action fields

namespace Tree

/-- The reference to an item of a kind that is plugged into the top block, if one is. -/
def held? (t : Tree) (entity : LibraryKind) : Option Reference :=
  (t.child? (.ofEntity entity)).map fun _ => t.readReference (.ofEntity entity)

def role (t : Tree) : Role := t.kind.role t.fields t.held?

mutual

/-- What the blocks of a tree stand for. -/
def roles : Tree → List Role
  | node kind fields inputs => (node kind fields inputs).role :: rolesOf inputs

def rolesOf : List (SocketName × Tree) → List Role
  | [] => []
  | (_, t) :: rest => t.roles ++ rolesOf rest

end

theorem roles_eq (t : Tree) : t.roles = t.role :: rolesOf t.inputs := by
  cases t
  rfl

theorem rolesOf_append (left right : List (SocketName × Tree)) :
    rolesOf (left ++ right) = rolesOf left ++ rolesOf right := by
  induction left with
  | nil => rfl
  | cons entry rest ih => rw [List.cons_append, rolesOf, rolesOf, ih, List.append_assoc]

theorem rolesOf_inSocket (socket : SocketName) (content : Option Tree) :
    rolesOf (inSocket socket content) = content.toList.flatMap roles := by
  cases content with
  | none => rfl
  | some t => simp [inSocket, rolesOf]

/-- Nothing that is plugged into another socket changes what is held. -/
theorem held?_plug (t : Tree) {socket : SocketName}
    (hs : socket ∉ LibraryKind.all.map .ofEntity) (content : Option Tree) :
    (t.plug socket content).held? = t.held? := by
  funext entity
  have hchild : (t.plug socket content).child? (.ofEntity entity) = t.child? (.ofEntity entity) := by
    have hnone : (inSocket socket content).find? (·.1 == .ofEntity entity) = none := by
      refine List.find?_eq_none.mpr fun entry hentry heq => hs ?_
      obtain ⟨u, -, rfl⟩ := Option.map_eq_some_iff.mp (Option.mem_toList.mp hentry)
      rw [show socket = .ofEntity entity from beq_iff_eq.mp heq]
      cases entity <;> decide
    rw [child?, inputs_plug, List.find?_append, hnone, Option.or_none, child?]
  rw [held?, held?, readReference, readReference, hchild]

theorem roles_plug (t : Tree) {socket : SocketName}
    (hs : socket ∉ LibraryKind.all.map .ofEntity) (content : Option Tree) :
    (t.plug socket content).roles = t.roles ++ content.toList.flatMap roles := by
  have hrole : (t.plug socket content).role = t.role := by
    rw [role, role, t.held?_plug hs]
    rfl
  rw [roles_eq, hrole, inputs_plug, rolesOf_append, rolesOf_inSocket, roles_eq, List.cons_append]

/-- The blocks of a chain are those of its links. -/
theorem roles_nest (links : List Tree) : (nest links).toList.flatMap roles = links.flatMap roles := by
  induction links with
  | nil => rfl
  | cons link rest ih =>
      rw [nest_cons, Option.toList_some, List.flatMap_singleton, List.flatMap_cons, ← ih]
      exact link.roles_plug (by decide) _

end Tree

namespace Graph

variable {g : Graph} {lo hi : Nat} {id : BlockId}

/-- The reference to an item of a kind that is plugged into a block, if one is. -/
def held? (g : Graph) (id : BlockId) (entity : LibraryKind) : Option Reference :=
  (g.child? id (.ofEntity entity)).map fun _ => g.readReference id (.ofEntity entity)

/-- What the blocks of a diagram stand for, in the order of their ids. -/
def roles (g : Graph) : List Role :=
  g.blocks.map fun (id, b) => b.kind.role b.fields (g.held? id)

/-- What a block stands for, if it is there. -/
def role? (g : Graph) (id : BlockId) : Option Role :=
  (g.block? id).map fun b => b.kind.role b.fields (g.held? id)

theorem roles_eq (g : Graph) : g.roles = (g.blocks.map (·.1)).filterMap g.role? := by
  rw [roles, List.filterMap_map, ← List.filterMap_eq_map]
  refine List.filterMap_congr fun entry hentry => ?_
  simp [role?, mem_blocks.mp hentry]

/-! ## The blocks below the roots -/

/-- Every block is below exactly one root. -/
theorem IsForest.ids_perm (hg : g.IsForest) :
    (g.blocks.map (·.1)).Perm (g.roots.flatMap g.descendants) := by
  have hlive : ∀ root ∈ g.roots, g.Live root := fun root hroot => (hg.mem_roots.mp hroot).1
  rw [List.perm_ext_iff_of_nodup g.ids_nodup]
  · intro id
    rw [mem_ids, List.mem_flatMap]
    constructor
    · exact hg.exists_root_of_live
    · rintro ⟨root, hroot, hid⟩
      obtain ⟨n, hclimb⟩ := (hg.mem_descendants (hlive root hroot)).mp hid
      cases n with
      | zero => exact Option.some.inj hclimb ▸ hlive root hroot
      | succ n =>
          obtain ⟨_, hplace, -⟩ := Option.bind_eq_some_iff.mp hclimb
          exact live_of_parent? hplace
  · rw [List.nodup_flatMap]
    refine ⟨fun root hroot => hg.descendants_nodup (hlive root hroot), ?_⟩
    exact hg.roots_nodup.imp_of_mem fun {root other} hroot hother hne id hid hid' =>
      hne (hg.root_unique hroot hother hid hid')

/-! ## The blocks of trees -/

theorem Shows.role? {t : Tree} {id : Nat} (h : g.Shows lo hi t id) : g.role? id = some t.role := by
  have hheld : g.held? id = t.held? := by
    funext entity
    rw [held?, Tree.held?, readReference_of_rel (h.child? _)]
    rcases rel_cases (h.child? (.ofEntity entity)) with ⟨ht, hc⟩ | ⟨_, _, ht, hc, -⟩
    · rw [ht, hc]
      rfl
    · rw [ht, hc]
      rfl
  obtain ⟨b, hb, hkind, hfields⟩ := h.block
  rw [Graph.role?, hb, Option.map_some, hkind, hfields, hheld, Tree.role]

mutual

/-- What the blocks below a block stand for is told by the tree that it shows. -/
theorem Shows.roles (hg : g.IsForest) : ∀ {t : Tree} {id : Nat}, g.Shows lo hi t id →
    (g.descendants id).filterMap g.role? = t.roles
  | _, _, .node hlo hhi hface hinputs => by
      have h := Shows.node hlo hhi hface hinputs
      obtain ⟨b, hb, hshown⟩ := Option.map_eq_some_iff.mp hface
      obtain ⟨rfl, rfl, rfl⟩ := Face.mk.inj hshown
      rw [hg.descendants_eq h.live, List.filterMap_cons, h.role?, children_eq hb, List.flatMap_map,
        hinputs.roles hg, Tree.roles]

theorem ShowsInputs.roles (hg : g.IsForest) :
    ∀ {inputs : List (SocketName × Tree)} {links : List (SocketName × BlockId)},
      g.ShowsInputs lo hi inputs links →
      (links.flatMap fun entry => g.descendants entry.2).filterMap g.role? = Tree.rolesOf inputs
  | _, _, .nil => rfl
  | _, _, .cons hchild hrest => by
      rw [List.flatMap_cons, List.filterMap_append, hchild.roles hg, hrest.roles hg, Tree.rolesOf]

end

/-- What the blocks of a forest stand for can be read off its trees. -/
theorem IsForest.roles_perm (hg : g.IsForest) : g.roles.Perm (g.forest.flatMap Tree.roles) := by
  have hroots : ∀ {ts : List Tree} {roots : List BlockId},
      List.Forall₂ (g.Shows 0 g.nextId) ts roots →
        (roots.flatMap g.descendants).filterMap g.role? = ts.flatMap Tree.roles := by
    intro ts roots h
    induction h with
    | nil => rfl
    | cons hshows _ ih =>
        rw [List.flatMap_cons, List.filterMap_append, hshows.roles hg, ih,
          List.flatMap_cons]
  rw [g.roles_eq, ← hroots hg.forall₂_forest]
  exact hg.ids_perm.filterMap _

end Graph

end TaskDiagram
