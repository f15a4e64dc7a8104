import Mathlib.Logic.Relation
import TaskDiagram.Proofs.Graph.Edits

/-! # Subtrees

The subtree of a block holds what is reached from it by following links down. In a forest these
are the blocks that climb to it, so one may go either way; no block below another reaches back,
and of two subtrees that share a block one lies in the other. The bounded walk that collects a
subtree meets each of its blocks once: first the block, then, socket by socket, the subtrees of
what is plugged into it.
-/

namespace TaskDiagram.Graph

variable {g g' : Graph} {id top other parent child : BlockId} {socket : SocketName}

/-- One block is plugged into another. -/
def LinksTo (g : Graph) (parent child : BlockId) : Prop :=
  ∃ socket, g.child? parent socket = some child

/-- Following links down leads from one block to another, maybe itself. -/
def Reaches (g : Graph) : BlockId → BlockId → Prop := Relation.ReflTransGen g.LinksTo

/-- What is plugged into a block, in the order of its sockets. -/
def children (g : Graph) (id : BlockId) : List BlockId := SocketName.all.filterMap (g.child? id)

/-- The children of a block are what is plugged into it. -/
theorem mem_children : child ∈ g.children parent ↔ g.LinksTo parent child := by
  have hall : ∀ socket : SocketName, socket ∈ SocketName.all := by
    intro socket
    cases socket <;> decide
  simp [children, LinksTo, hall]

theorem children_eq {b : Block} (hb : g.block? id = some b) :
    g.children id = b.inputs.toList.map (·.2) := by
  rw [Sockets.toList, children, List.map_filterMap]
  refine List.filterMap_congr fun socket _ => ?_
  rw [child?, hb, Option.bind_some]
  cases b.inputs.get? socket <;> rfl

/-! ## Down and up -/

namespace IsForest

/-- A block reaches those that climb to it. -/
theorem reaches_iff (h : g.IsForest) : g.Reaches top id ↔ ∃ n, g.climb n id = some top := by
  constructor
  · intro hreach
    induction hreach with
    | refl => exact ⟨0, rfl⟩
    | tail _ hlink ih =>
        obtain ⟨socket, hc⟩ := hlink
        obtain ⟨n, hn⟩ := ih
        exact ⟨n + 1, by simpa [climb, h.mirror.mpr hc] using hn⟩
  · rintro ⟨n, hn⟩
    induction n generalizing id with
    | zero =>
        obtain rfl := Option.some.inj hn
        exact .refl
    | succ n ih =>
        obtain ⟨⟨parent, socket⟩, hplace, hclimb⟩ := Option.bind_eq_some_iff.mp hn
        exact (ih hclimb).tail ⟨socket, h.mirror.mp hplace⟩

/-- The bounded climb tells whether a block lies in a subtree. -/
theorem isAncestor_iff_reaches (h : g.IsForest) :
    g.isAncestor top id = true ↔ g.Reaches top id := by
  rw [h.isAncestor_iff, h.reaches_iff]

/-- The walk through a subtree meets what the block reaches. -/
theorem mem_descendants_iff_reaches (h : g.IsForest) (htop : g.Live top) :
    id ∈ g.descendants top ↔ g.Reaches top id := by
  rw [h.mem_descendants htop, h.reaches_iff]

/-- A block is plugged into one block only. -/
theorem linksTo_unique (h : g.IsForest) (hlink : g.LinksTo parent child)
    (hother : g.LinksTo other child) : parent = other := by
  obtain ⟨socket, hc⟩ := hlink
  obtain ⟨place, hc'⟩ := hother
  have hsame := (h.mirror.mpr hc).symm.trans (h.mirror.mpr hc')
  exact (Prod.mk.inj (Option.some.inj hsame)).1

/-- What is plugged into a block does not reach back to it. -/
theorem not_reaches_back (h : g.IsForest) (hlink : g.LinksTo parent child) :
    ¬ g.Reaches child parent := by
  intro hback
  obtain ⟨socket, hc⟩ := hlink
  obtain ⟨n, hn⟩ := h.reaches_iff.mp hback
  apply h.climb_succ_ne_self n child
  simpa [climb, h.mirror.mpr hc] using hn

/-- Of two subtrees with a block in common one lies in the other. -/
theorem reaches_total (h : g.IsForest) (htop : g.Reaches top id) (hother : g.Reaches other id) :
    g.Reaches top other ∨ g.Reaches other top := by
  -- Upwards there is at most one way to go, so the two ways up from the block run together.
  have hunique : Relator.RightUnique (Function.swap g.LinksTo) :=
    fun _ _ _ hleft hright => h.linksTo_unique hleft hright
  have hup := Relation.reflTransGen_swap.mpr htop
  have hup' := Relation.reflTransGen_swap.mpr hother
  rcases Relation.ReflTransGen.total_of_right_unique hunique hup hup' with hle | hle
  · exact .inr (Relation.reflTransGen_swap.mp hle)
  · exact .inl (Relation.reflTransGen_swap.mp hle)

/-- What is plugged into one block side by side does not reach one another. -/
theorem eq_of_reaches_sibling (h : g.IsForest) (hlink : g.LinksTo parent child)
    (hother : g.LinksTo parent other) (hreach : g.Reaches child other) : child = other := by
  rcases Relation.ReflTransGen.cases_tail hreach with heq | ⟨above, habove, hlast⟩
  · exact heq.symm
  · obtain rfl := h.linksTo_unique hother hlast
    exact absurd habove (h.not_reaches_back hlink)

theorem children_nodup (h : g.IsForest) (id : BlockId) : (g.children id).Nodup := by
  have hall : SocketName.all.Nodup := by decide
  refine hall.filterMap fun socket place child hc hc' => ?_
  have hsame := (h.mirror.mpr hc).symm.trans (h.mirror.mpr hc')
  exact (Prod.mk.inj (Option.some.inj hsame)).2

end IsForest

/-! ## The walk through a subtree -/

/-- A block is met before what is plugged into it, socket by socket. -/
theorem below_succ (hid : g.Live id) (fuel : Nat) :
    g.below (fuel + 1) id = id :: (g.children id).flatMap (g.below fuel) := by
  obtain ⟨b, hb⟩ := Option.isSome_iff_exists.mp hid
  rw [below, hb, children_eq hb, List.flatMap_map]

theorem below_of_gone (hid : ¬ g.Live id) (fuel : Nat) : g.below fuel id = [] := by
  cases fuel with
  | zero => rfl
  | succ fuel => rw [below, block?_of_gone hid]

theorem descendants_of_gone (hid : ¬ g.Live id) : g.descendants id = [] :=
  below_of_gone hid g.nextId

/-- A bound beyond the depth of the subtree makes no difference. -/
theorem below_of_shallow {depth fuel : Nat} (h : g.Shallow depth id) (hle : depth ≤ fuel) :
    g.below fuel id = g.below depth id := by
  induction depth generalizing fuel id with
  | zero => exact h.elim
  | succ depth ih =>
      obtain ⟨fuel, rfl⟩ : ∃ k, fuel = k + 1 := ⟨fuel - 1, by omega⟩
      by_cases hid : g.Live id
      · rw [below_succ hid, below_succ hid]
        refine congrArg (id :: ·) (List.flatMap_congr fun child hchild => ?_)
        obtain ⟨socket, hc⟩ := mem_children.mp hchild
        exact ih (h.descend hc) (by omega)
      · rw [below_of_gone hid, below_of_gone hid]

/-- Each block before what is plugged into it, sockets in their order. -/
theorem IsForest.descendants_eq (h : g.IsForest) (hid : g.Live id) :
    g.descendants id = id :: (g.children id).flatMap g.descendants := by
  obtain ⟨k, hk⟩ := Nat.exists_eq_add_one_of_ne_zero (Nat.ne_zero_of_lt hid.lt_nextId)
  have hshallow := h.shallow hid
  rw [hk] at hshallow
  have hbelow : g.descendants id = g.below (k + 1) id := by rw [descendants, hk]
  rw [hbelow, below_succ hid]
  refine congrArg (id :: ·) (List.flatMap_congr fun child hchild => ?_)
  obtain ⟨socket, hc⟩ := mem_children.mp hchild
  rw [descendants, hk]
  exact (below_of_shallow (hshallow.descend hc) (Nat.le_succ k)).symm

/-- No block is met twice: different sockets lead to different blocks. -/
theorem IsForest.descendants_nodup (h : g.IsForest) (hid : g.Live id) :
    (g.descendants id).Nodup := by
  induction id, hid using h.below_induction with
  | step id hid ih =>
      have hlive : ∀ child ∈ g.children id, g.Live child := by
        intro child hchild
        obtain ⟨socket, hc⟩ := mem_children.mp hchild
        exact h.live_child hc
      rw [h.descendants_eq hid, List.nodup_cons, List.nodup_flatMap]
      refine ⟨fun hself => ?_, fun child hchild => ?_, ?_⟩
      · -- Were the block below itself, something plugged into it would reach back.
        obtain ⟨child, hchild, hmem⟩ := List.mem_flatMap.mp hself
        have hreach := (h.mem_descendants_iff_reaches (hlive child hchild)).mp hmem
        exact h.not_reaches_back (mem_children.mp hchild) hreach
      · obtain ⟨socket, hc⟩ := mem_children.mp hchild
        exact ih socket child hc
      · refine (h.children_nodup id).imp_of_mem fun {a b} ha hb hne x hx hx' => ?_
        have hreach := (h.mem_descendants_iff_reaches (hlive a ha)).mp hx
        have hreach' := (h.mem_descendants_iff_reaches (hlive b hb)).mp hx'
        have hlink := mem_children.mp ha
        have hlink' := mem_children.mp hb
        -- A block in two subtrees would put one of their tops below the other.
        rcases h.reaches_total hreach hreach' with hab | hba
        · exact hne (h.eq_of_reaches_sibling hlink hlink' hab)
        · exact hne (h.eq_of_reaches_sibling hlink' hlink hba).symm

/-- Roots do not reach each other. -/
theorem IsForest.eq_of_reaches_root (h : g.IsForest) {root : BlockId} (hroot : root ∈ g.roots)
    (hreach : g.Reaches id root) : id = root := by
  rcases Relation.ReflTransGen.cases_tail hreach with heq | ⟨parent, -, socket, hc⟩
  · exact heq.symm
  · have hplace := h.mirror.mpr hc
    rw [(h.mem_roots.mp hroot).2] at hplace
    cases hplace

/-- Every block is in the subtree of a root. -/
theorem IsForest.exists_root_of_live (h : g.IsForest) (hid : g.Live id) :
    ∃ root ∈ g.roots, id ∈ g.descendants root := by
  obtain ⟨n, root, hclimb, hroot⟩ := h.exists_root hid
  exact ⟨root, hroot, (h.mem_descendants (h.mem_roots.mp hroot).1).mpr ⟨n, hclimb⟩⟩

/-- No block is below two roots. -/
theorem IsForest.root_unique (h : g.IsForest) {root other : BlockId} (hroot : root ∈ g.roots)
    (hother : other ∈ g.roots) (hid : id ∈ g.descendants root)
    (hid' : id ∈ g.descendants other) : root = other := by
  have hreach := (h.mem_descendants_iff_reaches (h.mem_roots.mp hroot).1).mp hid
  have hreach' := (h.mem_descendants_iff_reaches (h.mem_roots.mp hother).1).mp hid'
  rcases h.reaches_total hreach hreach' with hdown | hdown
  · exact h.eq_of_reaches_root hother hdown
  · exact (h.eq_of_reaches_root hroot hdown).symm

/-- The walk does not depend on blocks that it does not reach. -/
theorem below_congr {fuel : Nat} (hlive : ∀ id, g'.Live id ↔ g.Live id)
    (hchildren : ∀ id, g.Reaches top id → g'.children id = g.children id) :
    g'.below fuel top = g.below fuel top := by
  induction fuel generalizing top with
  | zero => rfl
  | succ fuel ih =>
      by_cases htop : g.Live top
      · rw [below_succ htop, below_succ ((hlive top).mpr htop), hchildren top .refl]
        refine congrArg (top :: ·) (List.flatMap_congr fun child hchild => ?_)
        exact ih fun id hreach => hchildren id (.head (mem_children.mp hchild) hreach)
      · rw [below_of_gone htop, below_of_gone (mt (hlive top).mp htop)]

end TaskDiagram.Graph
