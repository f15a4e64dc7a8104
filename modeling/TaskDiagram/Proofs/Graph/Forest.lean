import Mathlib.Data.Finset.Card
import Mathlib.Data.Finset.Range
import TaskDiagram.Proofs.Graph.Contents

/-! # Forests

The invariant of diagrams: both ends of every link agree, the grammar accepts every
link, no block lies above itself, and the roots are exactly the blocks without a
parent. Since the way up from a block never meets a block twice, it is shorter than
the number of ids handed out, which is what the bounded walks of a diagram rely on.
-/

namespace TaskDiagram.Graph

variable {g : Graph} {id ancestor parent child : BlockId} {socket : SocketName}

/-- The block that is met after some steps on the way up. -/
def climb (g : Graph) : (steps : Nat) → BlockId → Option BlockId
  | 0, id => some id
  | steps + 1, id => (g.parent? id).bind fun place => climb g steps place.1

theorem climb_add (g : Graph) (m n : Nat) (id : BlockId) :
    g.climb (m + n) id = (g.climb m id).bind (g.climb n) := by
  induction m generalizing id with
  | zero => simp [climb]
  | succ m ih =>
      rw [Nat.add_right_comm, climb, climb, Option.bind_assoc]
      congr 1
      funext place
      exact ih place.1

/-- The last step of a climb goes from a child to its parent. -/
theorem climb_succ_eq_some {n : Nat} :
    g.climb (n + 1) id = some ancestor ↔
      ∃ child socket, g.climb n id = some child ∧ g.parent? child = some (ancestor, socket) := by
  rw [climb_add]
  simp [climb, Option.bind_eq_some_iff]

/-- The invariant of diagrams. -/
structure IsForest (g : Graph) : Prop where
  /-- A link is kept at both of its ends or at none. -/
  mirror : ∀ {parent socket child},
    g.parent? child = some (parent, socket) ↔ g.child? parent socket = some child
  accepted : ∀ {parent socket child}, g.child? parent socket = some child →
    ∃ p c, g.kind? parent = some p ∧ g.kind? child = some c ∧ g.grammar.accepts p socket c = true
  /-- Links lead from lower to higher ranks, so no block lies above itself. -/
  ranked : ∃ rank : BlockId → Nat, ∀ {parent socket child},
    g.parent? child = some (parent, socket) → rank parent < rank child
  roots_nodup : g.roots.Nodup
  mem_roots : ∀ {id}, id ∈ g.roots ↔ g.Live id ∧ g.parent? id = none

namespace IsForest

theorem live_parent (h : g.IsForest) (hp : g.parent? child = some (parent, socket)) :
    g.Live parent :=
  live_of_child? (h.mirror.mp hp)

theorem live_child (h : g.IsForest) (hc : g.child? parent socket = some child) : g.Live child :=
  live_of_parent? (h.mirror.mpr hc)

theorem live_climb (h : g.IsForest) (hid : g.Live id) {n : Nat}
    (hn : g.climb n id = some ancestor) : g.Live ancestor := by
  cases n with
  | zero => exact Option.some.inj hn ▸ hid
  | succ n =>
      obtain ⟨_, _, -, hp⟩ := climb_succ_eq_some.mp hn
      exact h.live_parent hp

/-- Climbing at least one step leads to another block. -/
theorem climb_succ_ne_self (h : g.IsForest) (n : Nat) (id : BlockId) :
    g.climb (n + 1) id ≠ some id := by
  obtain ⟨rank, hrank⟩ := h.ranked
  have hlower : ∀ n id ancestor, g.climb (n + 1) id = some ancestor → rank ancestor < rank id := by
    intro n
    induction n with
    | zero =>
        intro id ancestor hclimb
        obtain ⟨_, _, hself, hp⟩ := climb_succ_eq_some.mp hclimb
        obtain rfl := Option.some.inj hself
        exact hrank hp
    | succ n ih =>
        intro id ancestor hclimb
        obtain ⟨child, _, hn, hp⟩ := climb_succ_eq_some.mp hclimb
        exact (hrank hp).trans (ih id child hn)
  exact fun hself => Nat.lt_irrefl _ (hlower n id id hself)

/-- Every way up is shorter than the number of ids handed out: its blocks are distinct. -/
theorem lt_nextId_of_climb (h : g.IsForest) (hid : g.Live id) {n : Nat}
    (hn : g.climb n id = some ancestor) : n < g.nextId := by
  have hstep : ∀ i ≤ n, ∃ x, g.climb i id = some x := by
    intro i hi
    obtain ⟨k, rfl⟩ := Nat.exists_eq_add_of_le hi
    rw [climb_add] at hn
    obtain ⟨x, hx, -⟩ := Option.bind_eq_some_iff.mp hn
    exact ⟨x, hx⟩
  have hdistinct : ∀ i k, i + k < n → g.climb (i + (k + 1)) id ≠ g.climb i id := by
    intro i k hk heq
    obtain ⟨x, hx⟩ := hstep i (by omega)
    rw [climb_add, hx] at heq
    exact h.climb_succ_ne_self k x heq
  let met : Nat → BlockId := fun i => (g.climb i id).getD 0
  have hmet : ∀ i ≤ n, g.climb i id = some (met i) := by
    intro i hi
    obtain ⟨x, hx⟩ := hstep i hi
    simp [met, hx]
  -- What is met on the way are as many different ids.
  have hcard : (Finset.range (n + 1)).card ≤ (Finset.range g.nextId).card := by
    apply Finset.card_le_card_of_injOn met
    · intro i hi
      have hi : i ≤ n := by simpa [Nat.lt_succ_iff] using hi
      simpa using (h.live_climb hid (hmet i hi)).lt_nextId
    · intro i hi j hj heq
      have hi : i ≤ n := by simpa [Nat.lt_succ_iff] using hi
      have hj : j ≤ n := by simpa [Nat.lt_succ_iff] using hj
      have hclimb : g.climb i id = g.climb j id := by rw [hmet i hi, hmet j hj, heq]
      rcases Nat.lt_trichotomy i j with hlt | rfl | hlt
      · obtain ⟨k, rfl⟩ := Nat.exists_eq_add_of_lt hlt
        exact absurd hclimb.symm (hdistinct i k (by omega))
      · rfl
      · obtain ⟨k, rfl⟩ := Nat.exists_eq_add_of_lt hlt
        exact absurd hclimb (hdistinct j k (by omega))
  simpa [Nat.succ_le_iff] using hcard

/-- What holds of the roots, and of what is plugged into a block when it holds of the block,
holds of every block. -/
theorem forall_live (h : g.IsForest) {P : BlockId → Prop} (hroot : ∀ root ∈ g.roots, P root)
    (hchild : ∀ parent socket child, P parent → g.child? parent socket = some child → P child)
    (hid : g.Live id) : P id := by
  obtain ⟨rank, hrank⟩ := h.ranked
  induction hr : rank id using Nat.strongRecOn generalizing id with
  | ind r ih =>
      cases hp : g.parent? id with
      | none => exact hroot id (h.mem_roots.mpr ⟨hid, hp⟩)
      | some place =>
          obtain ⟨parent, socket⟩ := place
          have hparent := ih (rank parent) (hr ▸ hrank hp) (h.live_parent hp) rfl
          exact hchild parent socket id hparent (h.mirror.mp hp)

/-- The way up from a block ends at a root. -/
theorem exists_root (h : g.IsForest) (hid : g.Live id) :
    ∃ n root, g.climb n id = some root ∧ root ∈ g.roots := by
  refine h.forall_live (P := fun id => ∃ n root, g.climb n id = some root ∧ root ∈ g.roots)
    (fun root hroot => ⟨0, root, rfl, hroot⟩) (fun parent socket child => ?_) hid
  rintro ⟨n, root, hn, hroot⟩ hc
  exact ⟨n + 1, root, by simp [climb, h.mirror.mpr hc, hn], hroot⟩

end IsForest

theorem climbsTo_iff {fuel : Nat} :
    g.climbsTo ancestor fuel id = true ↔ ∃ n < fuel, g.climb n id = some ancestor := by
  induction fuel generalizing id with
  | zero => simp [climbsTo]
  | succ fuel ih =>
      have hsplit : (∃ n < fuel + 1, g.climb n id = some ancestor) ↔
          id = ancestor ∨ ∃ n < fuel, g.climb (n + 1) id = some ancestor := by
        constructor
        · rintro ⟨n, hn, hclimb⟩
          cases n with
          | zero => exact .inl (Option.some.inj hclimb)
          | succ n => exact .inr ⟨n, by omega, hclimb⟩
        · rintro (rfl | ⟨n, hn, hclimb⟩)
          · exact ⟨0, by omega, rfl⟩
          · exact ⟨n + 1, by omega, hclimb⟩
      rw [hsplit, climbsTo, Bool.or_eq_true, beq_iff_eq]
      cases hp : g.parent? id with
      | none => simp [climb, hp]
      | some place => simp [climb, hp, ih]

/-- The bounded climb misses no block above. -/
theorem IsForest.isAncestor_iff (h : g.IsForest) :
    g.isAncestor ancestor id = true ↔ ∃ n, g.climb n id = some ancestor := by
  rw [isAncestor, climbsTo_iff]
  refine ⟨fun ⟨n, _, hn⟩ => ⟨n, hn⟩, fun ⟨n, hn⟩ => ⟨n, ?_, hn⟩⟩
  cases n with
  | zero => omega
  | succ n =>
      have hid : g.Live id := by
        rw [climb] at hn
        obtain ⟨⟨_, _⟩, hp, -⟩ := Option.bind_eq_some_iff.mp hn
        exact live_of_parent? hp
      exact Nat.lt_succ_of_lt (h.lt_nextId_of_climb hid hn)

end TaskDiagram.Graph
