import Mathlib.Data.List.Nodup
import TaskDiagram.Proofs.Graph.Walks

/-! # Chains in forests

Blocks that are linked through `next` form chains. Every block lies in the chain of
exactly one head, where a head is a block that stands behind no other: a root, or the
first block in a socket. A chain meets no block twice, and what is left of it from a
block on is the chain of that block.
-/

namespace TaskDiagram.Graph

variable {g : Graph} {id head head' next : BlockId}

/-- Whether a block is there and stands behind no other. -/
structure IsHead (g : Graph) (head : BlockId) : Prop where
  live : g.Live head
  first : ∀ owner, g.parent? head ≠ some (owner, .next)

namespace IsForest

/-- What holds of a block when it holds of the one behind it holds of every block. -/
theorem chain_induction (h : g.IsForest) {motive : (id : BlockId) → g.Live id → Prop}
    (step : ∀ id hid,
      (∀ next (hnext : g.child? id .next = some next), motive next (h.live_child hnext)) →
        motive id hid)
    (id : BlockId) (hid : g.Live id) : motive id hid := by
  induction id, hid using h.below_induction with
  | step id hid ih => exact step id hid (ih .next)

theorem mem_chain_self (h : g.IsForest) (hid : g.Live id) : id ∈ g.chain id := by
  simp [h.chain_eq hid]

theorem chain_of_last (h : g.IsForest) (hid : g.Live id) (hnext : g.child? id .next = none) :
    g.chain id = [id] := by
  rw [h.chain_eq hid, branch_of_empty hnext]

theorem chain_of_next (h : g.IsForest) (hnext : g.child? id .next = some next) :
    g.chain id = id :: g.chain next := by
  rw [h.chain_eq (live_of_child? hnext), branch_of_child? hnext]

/-- A chain goes on behind each of its blocks. -/
theorem mem_chain_of_next (h : g.IsForest) (hhead : g.Live head) (hid : id ∈ g.chain head)
    (hnext : g.child? id .next = some next) : next ∈ g.chain head := by
  revert hid
  induction head, hhead using h.chain_induction with
  | step head hlive ih =>
      intro hid
      cases hsecond : g.child? head .next with
      | none =>
          rw [h.chain_of_last hlive hsecond, List.mem_singleton] at hid
          rw [hid, hsecond] at hnext
          cases hnext
      | some second =>
          rw [h.chain_of_next hsecond] at hid ⊢
          rcases List.mem_cons.mp hid with rfl | hid
          · obtain rfl := Option.some.inj (hnext.symm.trans hsecond)
            exact List.mem_cons_of_mem _ (h.mem_chain_self (h.live_child hsecond))
          · exact List.mem_cons_of_mem _ (ih second hsecond hid)

/-- What holds of the head of a chain, and goes over to the block behind, holds all along it. -/
theorem forall_chain (h : g.IsForest) (hhead : g.Live head) {P : BlockId → Prop} (hfirst : P head)
    (hnext : ∀ id ∈ g.chain head, P id → ∀ next, g.child? id .next = some next → P next) :
    ∀ id ∈ g.chain head, P id := by
  induction head, hhead using h.chain_induction with
  | step head hlive ih =>
      intro id hid
      cases hsecond : g.child? head .next with
      | none =>
          rw [h.chain_of_last hlive hsecond, List.mem_singleton] at hid
          exact hid ▸ hfirst
      | some second =>
          rw [h.chain_of_next hsecond] at hid hnext
          have hsecondHolds := hnext head List.mem_cons_self hfirst second hsecond
          rcases List.mem_cons.mp hid with rfl | hid
          · exact hfirst
          · exact ih second hsecond hsecondHolds
              (fun id hid => hnext id (List.mem_cons_of_mem _ hid)) id hid

theorem live_of_mem_chain (h : g.IsForest) (hhead : g.Live head) :
    ∀ id ∈ g.chain head, g.Live id :=
  h.forall_chain hhead hhead fun _ _ _ _ hnext => h.live_child hnext

theorem live_of_mem_branch (h : g.IsForest) {owner : BlockId} (socket : SocketName) :
    ∀ id ∈ g.branch owner socket, g.Live id := by
  intro id hid
  cases hhead : g.child? owner socket with
  | none => simp [branch_of_empty hhead] at hid
  | some head =>
      rw [branch_of_child? hhead] at hid
      exact h.live_of_mem_chain (h.live_child hhead) id hid

/-- Every block of a chain climbs to the head. -/
theorem climb_of_mem_chain (h : g.IsForest) (hhead : g.Live head) :
    ∀ id ∈ g.chain head, ∃ n, g.climb n id = some head := by
  apply h.forall_chain (P := fun id => ∃ n, g.climb n id = some head) hhead ⟨0, rfl⟩
  rintro id - ⟨n, hn⟩ next hnext
  exact ⟨n + 1, by simp [climb, h.mirror.mpr hnext, hn]⟩

/-- A block of a chain is its head or stands behind another block of it. -/
theorem eq_or_behind_of_mem_chain (h : g.IsForest) (hhead : g.Live head) :
    ∀ id ∈ g.chain head, id = head ∨ ∃ before ∈ g.chain head, g.child? before .next = some id := by
  apply h.forall_chain (P := fun id => id = head ∨ ∃ before ∈ g.chain head,
    g.child? before .next = some id) hhead (.inl rfl)
  intro id hid _ next hnext
  exact .inr ⟨id, hid, hnext⟩

theorem chain_nodup (h : g.IsForest) (hhead : g.Live head) : (g.chain head).Nodup := by
  induction head, hhead using h.chain_induction with
  | step head hlive ih =>
      cases hnext : g.child? head .next with
      | none => simp [h.chain_of_last hlive hnext]
      | some next =>
          rw [h.chain_of_next hnext, List.nodup_cons]
          refine ⟨fun hmem => ?_, ih next hnext⟩
          -- The head would climb to the block behind it, and from there on to itself.
          obtain ⟨n, hn⟩ := h.climb_of_mem_chain (h.live_child hnext) head hmem
          apply h.climb_succ_ne_self n head
          exact climb_succ_eq_some.mpr ⟨next, .next, hn, h.mirror.mpr hnext⟩

/-- Every block lies in the chain of a head. -/
theorem exists_head (h : g.IsForest) (hid : g.Live id) :
    ∃ head, g.IsHead head ∧ id ∈ g.chain head := by
  refine h.forall_live (P := fun id => ∃ head, g.IsHead head ∧ id ∈ g.chain head) ?_ ?_ hid
  · intro root hroot
    obtain ⟨hlive, hloose⟩ := h.mem_roots.mp hroot
    exact ⟨root, ⟨hlive, by simp [hloose]⟩, h.mem_chain_self hlive⟩
  · rintro parent socket child ⟨head, hhead, hmem⟩ hc
    by_cases hs : socket = .next
    · subst hs
      exact ⟨head, hhead, h.mem_chain_of_next hhead.live hmem hc⟩
    · have hlive := h.live_child hc
      refine ⟨child, ⟨hlive, fun owner howner => hs ?_⟩, h.mem_chain_self hlive⟩
      exact (Prod.mk.inj (Option.some.inj ((h.mirror.mpr hc).symm.trans howner))).2

/-- No block lies in the chains of two heads. -/
theorem head_unique (h : g.IsForest) (hhead : g.IsHead head) (hhead' : g.IsHead head')
    (hid : id ∈ g.chain head) (hid' : id ∈ g.chain head') : head' = head := by
  have hall : ∀ id ∈ g.chain head, id ∈ g.chain head' → head' = head := by
    apply h.forall_chain (P := fun id => id ∈ g.chain head' → head' = head) hhead.live
    · intro hmem
      rcases h.eq_or_behind_of_mem_chain hhead'.live head hmem with heq | ⟨before, -, hbefore⟩
      · exact heq.symm
      · exact absurd (h.mirror.mpr hbefore) (hhead.first before)
    · intro id _ ih next hnext hmem
      rcases h.eq_or_behind_of_mem_chain hhead'.live next hmem with rfl | ⟨before, hmem, hbefore⟩
      · exact absurd (h.mirror.mpr hnext) (hhead'.first id)
      · have hsame := (h.mirror.mpr hnext).symm.trans (h.mirror.mpr hbefore)
        obtain ⟨rfl, -⟩ := Prod.mk.inj (Option.some.inj hsame)
        exact ih hmem
  exact hall id hid hid'

theorem isHead_of_root (h : g.IsForest) (hroot : head ∈ g.roots) : g.IsHead head :=
  have ⟨hlive, hloose⟩ := h.mem_roots.mp hroot
  ⟨hlive, by simp [hloose]⟩

theorem isHead_of_child? (h : g.IsForest) {owner : BlockId} {socket : SocketName}
    (hne : socket ≠ .next) (hc : g.child? owner socket = some head) : g.IsHead head where
  live := h.live_child hc
  first := by
    intro other hother
    have hsame := (h.mirror.mpr hc).symm.trans hother
    exact hne (Prod.mk.inj (Option.some.inj hsame)).2

/-- What is left of a chain from a block on is the chain of that block. -/
theorem drop_chain (h : g.IsForest) (hhead : g.Live head) {index : Nat}
    (hid : (g.chain head)[index]? = some id) : (g.chain head).drop index = g.chain id := by
  induction index generalizing head with
  | zero =>
      rw [h.chain_eq hhead] at hid
      obtain rfl := Option.some.inj hid
      rfl
  | succ index ih =>
      cases hnext : g.child? head .next with
      | none =>
          rw [h.chain_of_last hhead hnext] at hid
          cases hid
      | some next =>
          rw [h.chain_of_next hnext] at hid ⊢
          exact ih (h.live_child hnext) hid

/-- Blocks that are linked stand next to one another in their chain. -/
theorem getElem?_chain_succ (h : g.IsForest) (hhead : g.Live head) {index : Nat}
    (hid : (g.chain head)[index]? = some id) (hnext : g.child? id .next = some next) :
    (g.chain head)[index + 1]? = some next := by
  have hdrop := h.drop_chain hhead hid
  rw [h.chain_of_next hnext, h.chain_eq (h.live_child hnext)] at hdrop
  rw [← List.getElem?_drop, hdrop]
  rfl

/-- A chain without its first blocks is empty or a chain. -/
theorem dropWhile_chain (h : g.IsForest) (hhead : g.Live head) (p : BlockId → Bool) :
    (g.chain head).dropWhile p = [] ∨
      ∃ id, id ∈ g.chain head ∧ p id = false ∧ (g.chain head).dropWhile p = g.chain id := by
  induction head, hhead using h.chain_induction with
  | step head hlive ih =>
      cases hp : p head with
      | false =>
          refine .inr ⟨head, h.mem_chain_self hlive, hp, ?_⟩
          rw [h.chain_eq hlive, List.dropWhile_cons, hp]
          rfl
      | true =>
          cases hnext : g.child? head .next with
          | none => exact .inl (by simp [h.chain_of_last hlive hnext, hp])
          | some next =>
              have hrest : (g.chain head).dropWhile p = (g.chain next).dropWhile p := by
                rw [h.chain_of_next hnext, List.dropWhile_cons, hp]
                rfl
              rw [hrest]
              refine (ih next hnext).imp_right ?_
              rintro ⟨id, hmem, hid, heq⟩
              refine ⟨id, ?_, hid, heq⟩
              rw [h.chain_of_next hnext]
              exact List.mem_cons_of_mem _ hmem

end IsForest

end TaskDiagram.Graph
