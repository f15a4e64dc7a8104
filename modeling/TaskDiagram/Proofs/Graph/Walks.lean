import TaskDiagram.Graph.Walk
import TaskDiagram.Proofs.Graph.Forest

/-! # Walks in forests

Walks are bounded by the number of ids handed out. In a forest the bound cuts nothing
off, so a walk satisfies the equation that one would write without it, and the blocks
it meets below a block are those that climb to it.
-/

namespace TaskDiagram

theorem Sockets.mem_toList {α : Type} {s : Sockets α} {socket : SocketName} {content : α} :
    (socket, content) ∈ s.toList ↔ s.get? socket = some content := by
  have hall : ∀ socket : SocketName, socket ∈ SocketName.all := by
    intro socket
    cases socket <;> decide
  simp [toList, hall]

namespace Graph

variable {g : Graph} {id ancestor parent child : BlockId} {socket : SocketName}

/-- Whether the deepest block below a block is fewer than `depth` links away. -/
def Shallow (g : Graph) : (depth : Nat) → BlockId → Prop
  | 0, _ => False
  | depth + 1, id => ∀ socket child, g.child? id socket = some child → Shallow g depth child

theorem Shallow.descend {depth : Nat} (h : g.Shallow (depth + 1) id)
    (hc : g.child? id socket = some child) : g.Shallow depth child :=
  h socket child hc

/-- A subtree that is not deep is not deeper than any larger bound either. -/
theorem Shallow.mono {depth depth' : Nat} (hle : depth ≤ depth') {id : BlockId}
    (h : g.Shallow depth id) : g.Shallow depth' id := by
  induction depth generalizing depth' id with
  | zero => exact h.elim
  | succ depth ih =>
      obtain ⟨depth', rfl⟩ : ∃ k, depth' = k + 1 := ⟨depth' - 1, by omega⟩
      exact fun socket child hc => ih (Nat.le_of_succ_le_succ hle) (h socket child hc)

/-- No way down is longer than the number of ids handed out. -/
theorem IsForest.shallow (h : g.IsForest) (hid : g.Live id) : g.Shallow g.nextId id := by
  -- A block that is `n` links below another needs `n` links less.
  have hbelow : ∀ depth n below, g.Live below → g.climb n below = some id →
      ¬ depth + n < g.nextId → g.Shallow depth below := by
    intro depth
    induction depth with
    | zero =>
        intro n below hlive hn hle
        exact absurd (h.lt_nextId_of_climb hlive hn) (by simpa using hle)
    | succ depth ih =>
        intro n below hlive hn hle socket child hc
        have hclimb : g.climb (n + 1) child = some id := by
          simp [climb, h.mirror.mpr hc, hn]
        exact ih (n + 1) child (h.live_child hc) hclimb (by rwa [← Nat.succ_add_eq_add_succ])
  exact hbelow g.nextId 0 id hid rfl (Nat.lt_irrefl _)

/-- What holds of a block when it holds of all that is plugged into it holds of every block. -/
theorem IsForest.below_induction (h : g.IsForest) {motive : (id : BlockId) → g.Live id → Prop}
    (step : ∀ id hid,
      (∀ socket child (hc : g.child? id socket = some child), motive child (h.live_child hc)) →
        motive id hid)
    (id : BlockId) (hid : g.Live id) : motive id hid := by
  have hdepth : ∀ depth id hid, g.Shallow depth id → motive id hid := by
    intro depth
    induction depth with
    | zero => exact fun _ _ hshallow => hshallow.elim
    | succ depth ih =>
        intro id hid hshallow
        apply step id hid
        intro socket child hc
        exact ih child _ (hshallow.descend hc)
  exact hdepth g.nextId id hid (h.shallow hid)

/-! ## Chains -/

/-- A bound beyond the depth of a chain makes no difference. -/
theorem chainFrom_of_shallow {depth fuel : Nat} (h : g.Shallow depth id) (hle : depth ≤ fuel) :
    g.chainFrom fuel id = g.chainFrom depth id := by
  induction depth generalizing fuel id with
  | zero => exact h.elim
  | succ depth ih =>
      obtain ⟨fuel, rfl⟩ : ∃ k, fuel = k + 1 := ⟨fuel - 1, by omega⟩
      rw [chainFrom, chainFrom]
      cases hb : g.block? id with
      | none => rfl
      | some b =>
          simp only
          cases hn : b.inputs.next with
          | none => rfl
          | some next =>
              have hc : g.child? id .next = some next := by simp [child?, hb, Sockets.get?, hn]
              exact congrArg (id :: ·) (ih (h.descend hc) (by omega))

/-- A chain is its head, followed by the chain plugged in behind it. -/
theorem IsForest.chain_eq (h : g.IsForest) (hid : g.Live id) :
    g.chain id = id :: g.branch id .next := by
  have hshallow := h.shallow hid
  obtain ⟨b, hb⟩ := Option.isSome_iff_exists.mp hid
  obtain ⟨k, hk⟩ := Nat.exists_eq_add_one_of_ne_zero (Nat.ne_zero_of_lt hid.lt_nextId)
  rw [hk] at hshallow
  have hnext : g.child? id .next = b.inputs.next := by simp [child?, hb, Sockets.get?]
  simp only [chain, branch, hk, chainFrom, hb, hnext]
  cases hn : b.inputs.next with
  | none => rfl
  | some next =>
      rw [hn] at hnext
      exact congrArg (id :: ·)
        (chainFrom_of_shallow (hshallow.descend hnext) (Nat.le_succ k)).symm

theorem branch_of_child? {parent head : BlockId} {socket : SocketName}
    (h : g.child? parent socket = some head) : g.branch parent socket = g.chain head := by
  rw [branch, h]

theorem branch_of_empty {parent : BlockId} {socket : SocketName}
    (h : g.child? parent socket = none) : g.branch parent socket = [] := by
  rw [branch, h]

/-! ## Blocks below a block -/

/-- Within a bound the walk meets the blocks that climb to its start in fewer turns. -/
theorem IsForest.mem_below (h : g.IsForest) {fuel : Nat} {id : BlockId} :
    id ∈ g.below fuel ancestor ↔ g.Live ancestor ∧ ∃ n < fuel, g.climb n id = some ancestor := by
  induction fuel generalizing ancestor with
  | zero => simp [below]
  | succ fuel ih =>
      rw [below]
      cases hb : g.block? ancestor with
      | none => simp [Live, hb]
      | some b =>
          have hlive : g.Live ancestor := by simp [Live, hb]
          have hchild : ∀ socket, g.child? ancestor socket = b.inputs.get? socket := by
            simp [child?, hb]
          simp only [List.mem_cons, List.mem_flatMap, Prod.exists, Sockets.mem_toList, ← hchild, ih,
            hlive, true_and]
          constructor
          · rintro (rfl | ⟨socket, child, hc, -, n, hn, hclimb⟩)
            · exact ⟨0, by omega, rfl⟩
            · exact ⟨n + 1, by omega,
                climb_succ_eq_some.mpr ⟨child, socket, hclimb, h.mirror.mpr hc⟩⟩
          · rintro ⟨n, hn, hclimb⟩
            cases n with
            | zero => exact .inl (Option.some.inj hclimb)
            | succ n =>
                obtain ⟨child, socket, hclimb, hp⟩ := climb_succ_eq_some.mp hclimb
                exact .inr ⟨socket, child, h.mirror.mp hp, live_of_parent? hp, n, by omega, hclimb⟩

/-- The blocks at or below a block are those that climb to it. -/
theorem IsForest.mem_descendants (h : g.IsForest) (hancestor : g.Live ancestor) :
    id ∈ g.descendants ancestor ↔ ∃ n, g.climb n id = some ancestor := by
  rw [descendants, h.mem_below]
  refine ⟨fun ⟨_, n, _, hn⟩ => ⟨n, hn⟩, fun ⟨n, hn⟩ => ⟨hancestor, n, ?_, hn⟩⟩
  have hid : g.Live id := by
    cases n with
    | zero => exact Option.some.inj hn ▸ hancestor
    | succ n =>
        rw [climb] at hn
        obtain ⟨⟨_, _⟩, hp, -⟩ := Option.bind_eq_some_iff.mp hn
        exact live_of_parent? hp
  exact h.lt_nextId_of_climb hid hn

end Graph

end TaskDiagram
