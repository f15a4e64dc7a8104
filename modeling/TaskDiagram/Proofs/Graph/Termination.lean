import TaskDiagram.Proofs.Graph.Chains
import TaskDiagram.Proofs.Graph.Subtrees

/-! # Walks end by themselves

The walks through a diagram are bounded. Without a bound each of them is a loop: it goes from block
to block, or takes the next one from a stack, until there is none left. In a forest such a loop ends
whatever block it is started at, and with what the bounded walk gives.
-/

namespace TaskDiagram

/-- A loop ends with a result. A turn of the loop either is the last one or leads to another
state. -/
inductive Ends {σ ρ : Type} (turn : σ → σ ⊕ ρ) : σ → ρ → Prop
  | stop {s : σ} {r : ρ} (h : turn s = .inr r) : Ends turn s r
  | go {s s' : σ} {r : ρ} (h : turn s = .inl s') (rest : Ends turn s' r) : Ends turn s r

/-- A loop ends with one result only. -/
theorem Ends.unique {σ ρ : Type} {turn : σ → σ ⊕ ρ} {s : σ} {r r' : ρ} (h : Ends turn s r)
    (h' : Ends turn s r') : r = r' := by
  induction h with
  | stop hr =>
      cases h' with
      | stop hr' => exact Sum.inr.inj (hr.symm.trans hr')
      | go hs' => cases hr.symm.trans hs'
  | go hs rest ih =>
      cases h' with
      | stop hr' => cases hs.symm.trans hr'
      | go hs' rest' =>
          obtain rfl := Sum.inl.inj (hs.symm.trans hs')
          exact ih rest'

namespace Graph

variable {g : Graph} {id ancestor : BlockId}

/-! ## Loops -/

/-- Along a chain: the block that comes next, and those met before it. -/
def chainTurn (g : Graph) :
    Option BlockId × List BlockId → Option BlockId × List BlockId ⊕ List BlockId
  | (none, met) => .inr met
  | (some id, met) => .inl (g.child? id .next, met ++ [id])

/-- Before the first turn along a chain nothing is met. -/
def chainStart (g : Graph) (head : BlockId) : Option BlockId × List BlockId :=
  ((g.block? head).map fun _ => head, [])

/-- Through a subtree: the stack of blocks still to be visited, and those met before. What is
plugged into a block goes on the stack so that the first socket is visited first. -/
def subtreeTurn (g : Graph) :
    List BlockId × List BlockId → List BlockId × List BlockId ⊕ List BlockId
  | ([], met) => .inr met
  | (id :: stack, met) =>
      match g.block? id with
      | none => .inl (stack, met)
      | some b => .inl (b.inputs.toList.map (·.2) ++ stack, met ++ [id])

/-- Up from a block until an ancestor is met or there is no parent. -/
def climbTurn (g : Graph) (ancestor : BlockId) : Option BlockId → Option BlockId ⊕ Bool
  | none => .inr false
  | some id => if id = ancestor then .inr true else .inl ((g.parent? id).map (·.1))

/-! ## Chains -/

theorem chain_of_gone (hid : ¬ g.Live id) : g.chain id = [] := by
  rw [chain]
  cases g.nextId with
  | zero => rfl
  | succ fuel => rw [chainFrom, block?_of_gone hid]

/-- From any block of a chain the loop meets the rest of the chain. -/
theorem IsForest.ends_chain_from (h : g.IsForest) (hid : g.Live id) (met : List BlockId) :
    Ends g.chainTurn (some id, met) (met ++ g.chain id) := by
  induction id, hid using h.chain_induction generalizing met with
  | step id hid ih =>
      refine .go rfl ?_
      cases hnext : g.child? id .next with
      | none =>
          rw [h.chain_of_last hid hnext]
          exact .stop rfl
      | some next =>
          have hmet : met ++ g.chain id = met ++ [id] ++ g.chain next := by
            rw [h.chain_of_next hnext, List.append_cons]
          rw [hmet]
          exact ih next hnext (met ++ [id])

/-- The loop along a chain ends with the chain, also where there is no block. -/
theorem IsForest.ends_chain (h : g.IsForest) (head : BlockId) :
    Ends g.chainTurn (g.chainStart head) (g.chain head) := by
  by_cases hhead : g.Live head
  · obtain ⟨b, hb⟩ := Option.isSome_iff_exists.mp hhead
    rw [chainStart, hb]
    exact h.ends_chain_from hhead []
  · rw [chainStart, block?_of_gone hhead, chain_of_gone hhead]
    exact .stop rfl

/-! ## Subtrees -/

/-- When the loop takes a block from its stack, it has met the subtree of the block by the time it
comes to the rest of the stack. -/
def Visits (g : Graph) (id : BlockId) : Prop :=
  ∀ (stack met r : List BlockId), Ends g.subtreeTurn (stack, met ++ g.descendants id) r →
    Ends g.subtreeTurn (id :: stack, met) r

/-- When each block of a list is visited, they are one after the other. -/
theorem visits_all {ids : List BlockId} (hids : ∀ id ∈ ids, g.Visits id)
    {stack met r : List BlockId}
    (hrest : Ends g.subtreeTurn (stack, met ++ ids.flatMap g.descendants) r) :
    Ends g.subtreeTurn (ids ++ stack, met) r := by
  induction ids generalizing met with
  | nil => simpa using hrest
  | cons id ids ih =>
      apply hids id List.mem_cons_self
      apply ih fun other hother => hids other (List.mem_cons_of_mem _ hother)
      simpa [List.append_assoc] using hrest

/-- Every block is visited, by induction on how deep its subtree is. -/
theorem IsForest.visits (h : g.IsForest) (id : BlockId) : g.Visits id := by
  by_cases hid : g.Live id
  · induction id, hid using h.below_induction with
    | step id hid ih =>
        intro stack met r hrest
        obtain ⟨b, hb⟩ := Option.isSome_iff_exists.mp hid
        have hturn : g.subtreeTurn (id :: stack, met) =
            .inl (g.children id ++ stack, met ++ [id]) := by
          rw [subtreeTurn, hb, children_eq hb]
        rw [h.descendants_eq hid, List.append_cons] at hrest
        refine .go hturn (visits_all (fun child hchild => ?_) hrest)
        obtain ⟨socket, hc⟩ := mem_children.mp hchild
        exact ih socket child hc
  · intro stack met r hrest
    rw [descendants_of_gone hid, List.append_nil] at hrest
    have hturn : g.subtreeTurn (id :: stack, met) = .inl (stack, met) := by
      rw [subtreeTurn, block?_of_gone hid]
    exact .go hturn hrest

/-- The loop through a subtree ends with the blocks of the subtree. -/
theorem IsForest.ends_subtree (h : g.IsForest) (top : BlockId) :
    Ends g.subtreeTurn ([top], []) (g.descendants top) :=
  h.visits top [] [] _ (.stop rfl)

/-! ## Ways up -/

/-- Whoever is not the ancestor itself is below it exactly when its parent is. -/
theorem IsForest.isAncestor_of_parent? (h : g.IsForest) {parent : BlockId} {socket : SocketName}
    (hne : id ≠ ancestor) (hp : g.parent? id = some (parent, socket)) :
    g.isAncestor ancestor id = g.isAncestor ancestor parent := by
  rw [Bool.eq_iff_iff, h.isAncestor_iff_reaches, h.isAncestor_iff_reaches]
  have hlink : g.LinksTo parent id := ⟨socket, h.mirror.mp hp⟩
  refine ⟨fun hreach => ?_, fun hreach => hreach.tail hlink⟩
  rcases Relation.ReflTransGen.cases_tail hreach with heq | ⟨above, habove, hlast⟩
  · exact absurd heq hne
  · rwa [h.linksTo_unique hlink hlast]

/-- One turn, and the way up from the parent. -/
theorem IsForest.ends_climb_step (h : g.IsForest)
    (hparent : ∀ parent socket, g.parent? id = some (parent, socket) →
      Ends (g.climbTurn ancestor) (some parent) (g.isAncestor ancestor parent)) :
    Ends (g.climbTurn ancestor) (some id) (g.isAncestor ancestor id) := by
  by_cases hid : id = ancestor
  · exact .stop (by simp [climbTurn, isAncestor, climbsTo, hid])
  · cases hp : g.parent? id with
    | none =>
        have hturn : g.climbTurn ancestor (some id) = .inl none := by simp [climbTurn, hid, hp]
        exact .go hturn (.stop (by simp [climbTurn, isAncestor, climbsTo, hid, hp]))
    | some place =>
        obtain ⟨parent, socket⟩ := place
        have hturn : g.climbTurn ancestor (some id) = .inl (some parent) := by
          simp [climbTurn, hid, hp]
        rw [h.isAncestor_of_parent? hid hp]
        exact .go hturn (hparent parent socket hp)

/-- The way up ends, and tells whether it came by the ancestor. -/
theorem IsForest.ends_climb (h : g.IsForest) (ancestor id : BlockId) :
    Ends (g.climbTurn ancestor) (some id) (g.isAncestor ancestor id) := by
  have hlive : ∀ {id}, g.Live id →
      Ends (g.climbTurn ancestor) (some id) (g.isAncestor ancestor id) := by
    intro id hid
    refine h.forall_live
      (P := fun id => Ends (g.climbTurn ancestor) (some id) (g.isAncestor ancestor id))
      (fun root hroot => ?_) (fun parent socket child hparent hc => ?_) hid
    · refine h.ends_climb_step fun parent socket hp => ?_
      cases (h.mem_roots.mp hroot).2.symm.trans hp
    · refine h.ends_climb_step fun other place hp => ?_
      cases (h.mirror.mpr hc).symm.trans hp
      exact hparent
  exact h.ends_climb_step fun parent socket hp => hlive (h.live_parent hp)

/-! ## Walks of reachable diagrams -/

/-- After any edits the walks through a diagram end, started at any block that is there or not:
along a chain, through a subtree and up to an ancestor. No block is met twice. Through a subtree
the walk meets each block before what is plugged into it, sockets in their order. It meets the
blocks from which the way up leads to its top, and every block is met from exactly one root. -/
theorem walks_end_and_agree (grammar : Grammar) (edits : List GraphEdit) :
    let g := (empty grammar).run edits
    (∀ head r, Ends g.chainTurn (g.chainStart head) r ↔ r = g.chain head) ∧
      (∀ top r, Ends g.subtreeTurn ([top], []) r ↔ r = g.descendants top) ∧
      (∀ ancestor id r,
        Ends (g.climbTurn ancestor) (some id) r ↔ r = g.isAncestor ancestor id) ∧
      (∀ id, (g.chain id).Nodup ∧ (g.descendants id).Nodup) ∧
      (∀ id, g.Live id → g.descendants id = id :: (g.children id).flatMap g.descendants) ∧
      (∀ id, ¬ g.Live id → g.descendants id = []) ∧
      (∀ ancestor id, g.Live ancestor → g.Live id →
        (id ∈ g.descendants ancestor ↔ g.isAncestor ancestor id = true)) ∧
      ∀ id, g.Live id → ∃! root, root ∈ g.roots ∧ id ∈ g.descendants root := by
  intro g
  have h : g.IsForest := (isForest_empty grammar).run edits
  refine ⟨fun head r => ?_, fun top r => ?_, fun ancestor id r => ?_, fun id => ⟨?_, ?_⟩,
    fun id hid => h.descendants_eq hid, fun id hid => descendants_of_gone hid,
    fun ancestor id hancestor _ => ?_, fun id hid => ?_⟩
  · exact ⟨fun hr => hr.unique (h.ends_chain head), fun hr => hr ▸ h.ends_chain head⟩
  · exact ⟨fun hr => hr.unique (h.ends_subtree top), fun hr => hr ▸ h.ends_subtree top⟩
  · exact ⟨fun hr => hr.unique (h.ends_climb ancestor id),
      fun hr => hr ▸ h.ends_climb ancestor id⟩
  · by_cases hid : g.Live id
    · exact h.chain_nodup hid
    · exact chain_of_gone hid ▸ List.nodup_nil
  · by_cases hid : g.Live id
    · exact h.descendants_nodup hid
    · exact descendants_of_gone hid ▸ List.nodup_nil
  · rw [h.mem_descendants_iff_reaches hancestor, h.isAncestor_iff_reaches]
  · obtain ⟨root, hroot, hmem⟩ := h.exists_root_of_live hid
    exact ⟨root, ⟨hroot, hmem⟩, fun other ⟨hother, hmem'⟩ => h.root_unique hother hroot hmem' hmem⟩

end Graph

end TaskDiagram
