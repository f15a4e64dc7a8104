import Mathlib
import TaskDiagram.Graph.Tree

/-! # Pairing off the same trees

Doubles are compared as numbers, and nothing is equal to what is not a number, so a tree need not be
the same as itself. But to be the same goes both ways, and on from tree to tree. That is what is
needed to compare forests by taking for each tree of one the first tree of the other that is the
same: if all trees can be paired off, they still can after any such choice.

That `==` on doubles is symmetric and transitive comes with Mathlib as a whole and with none of its
modules, so all of it is imported.
-/

namespace TaskDiagram

/-! ## Values and fields -/

namespace FieldValue

theorem beq_def (v w : FieldValue) : (v == w) = beq v w := rfl

instance : PartialEquivBEq FieldValue where
  symm {v w} h := by
    rw [beq_def] at h ⊢
    cases v <;> cases w <;> simp only [beq, Bool.false_eq_true] at h ⊢ <;> exact BEq.symm h
  trans {u v w} h h' := by
    rw [beq_def] at h h' ⊢
    cases u <;> cases v <;> simp only [beq, Bool.false_eq_true] at h <;>
      cases w <;> simp only [beq, Bool.false_eq_true] at h' ⊢ <;> exact BEq.trans h h'

end FieldValue

instance partialEquivBEqProd {α β : Type} [BEq α] [BEq β] [PartialEquivBEq α]
    [PartialEquivBEq β] : PartialEquivBEq (α × β) where
  symm {x y} h := by
    obtain ⟨hfirst, hsecond⟩ := Bool.and_eq_true_iff.mp h
    exact Bool.and_eq_true_iff.mpr ⟨BEq.symm hfirst, BEq.symm hsecond⟩
  trans {x y z} h h' := by
    obtain ⟨hfirst, hsecond⟩ := Bool.and_eq_true_iff.mp h
    obtain ⟨hfirst', hsecond'⟩ := Bool.and_eq_true_iff.mp h'
    exact Bool.and_eq_true_iff.mpr ⟨BEq.trans hfirst hfirst', BEq.trans hsecond hsecond'⟩

/-- Comparison of lists goes both ways when that of their members does. -/
theorem list_beq_symm {α : Type} [BEq α] [PartialEquivBEq α] {l m : List α} (h : (l == m) = true) :
    (m == l) = true := by
  induction l generalizing m with
  | nil => cases m <;> simp_all
  | cons a l ih =>
      cases m with
      | nil => cases h
      | cons b m =>
          rw [List.cons_beq_cons, Bool.and_eq_true] at h ⊢
          exact ⟨BEq.symm h.1, ih h.2⟩

/-- Comparison of lists goes on from list to list when that of their members does. -/
theorem list_beq_trans {α : Type} [BEq α] [PartialEquivBEq α] {l m n : List α}
    (h : (l == m) = true) (h' : (m == n) = true) : (l == n) = true := by
  induction l generalizing m n with
  | nil => cases m <;> cases n <;> simp_all
  | cons a l ih =>
      cases m with
      | nil => cases h
      | cons b m =>
          cases n with
          | nil => cases h'
          | cons c n =>
              rw [List.cons_beq_cons, Bool.and_eq_true] at h h' ⊢
              exact ⟨BEq.trans h.1 h'.1, ih h.2 h'.2⟩

theorem FieldMap.same_symm {a b : FieldMap} (h : a.same b = true) : b.same a = true :=
  list_beq_symm h

theorem FieldMap.same_trans {a b c : FieldMap} (h : a.same b = true) (h' : b.same c = true) :
    a.same c = true :=
  list_beq_trans h h'

/-! ## Trees -/

namespace Tree

/-- Trees are the same when kind, fields and contents of sockets are. -/
theorem same_node {kind kind' : BlockKind} {fields fields' : FieldMap}
    {inputs inputs' : List (SocketName × Tree)} :
    (node kind fields inputs).same (node kind' fields' inputs') = true ↔
      kind = kind' ∧ fields.same fields' = true ∧ sameList inputs inputs' = true := by
  rw [same, Bool.and_eq_true, Bool.and_eq_true, beq_iff_eq, and_assoc]

/-- Contents of sockets are the same when they are one by one, socket by socket. -/
theorem sameList_cons {socket socket' : SocketName} {t u : Tree}
    {rest rest' : List (SocketName × Tree)} :
    sameList ((socket, t) :: rest) ((socket', u) :: rest') = true ↔
      socket = socket' ∧ t.same u = true ∧ sameList rest rest' = true := by
  rw [sameList, Bool.and_eq_true, Bool.and_eq_true, beq_iff_eq, and_assoc]

mutual

/-- Sameness of trees goes both ways, by induction along both trees. -/
theorem same_symm : ∀ {t u : Tree}, t.same u = true → u.same t = true
  | .node .., .node .., h =>
      have ⟨hkind, hfields, hinputs⟩ := same_node.mp h
      same_node.mpr ⟨hkind.symm, FieldMap.same_symm hfields, sameList_symm hinputs⟩

theorem sameList_symm : ∀ {ts us : List (SocketName × Tree)},
    sameList ts us = true → sameList us ts = true
  | [], [], h => h
  | [], _ :: _, h => by simp [sameList] at h
  | _ :: _, [], h => by simp [sameList] at h
  | (_, _) :: _, (_, _) :: _, h =>
      have ⟨hsocket, htree, hrest⟩ := sameList_cons.mp h
      sameList_cons.mpr ⟨hsocket.symm, same_symm htree, sameList_symm hrest⟩

end

mutual

/-- Sameness of trees goes on from tree to tree. -/
theorem same_trans : ∀ {t u v : Tree}, t.same u = true → u.same v = true → t.same v = true
  | .node .., .node .., .node .., h, h' =>
      have ⟨hkind, hfields, hinputs⟩ := same_node.mp h
      have ⟨hkind', hfields', hinputs'⟩ := same_node.mp h'
      same_node.mpr ⟨hkind.trans hkind', FieldMap.same_trans hfields hfields',
        sameList_trans hinputs hinputs'⟩

theorem sameList_trans : ∀ {ts us vs : List (SocketName × Tree)},
    sameList ts us = true → sameList us vs = true → sameList ts vs = true
  | [], [], _, _, h' => h'
  | [], _ :: _, _, h, _ => by simp [sameList] at h
  | _ :: _, [], _, h, _ => by simp [sameList] at h
  | _, _ :: _, [], _, h' => by simp [sameList] at h'
  | (_, _) :: _, (_, _) :: _, (_, _) :: _, h, h' =>
      have ⟨hsocket, htree, hrest⟩ := sameList_cons.mp h
      have ⟨hsocket', htree', hrest'⟩ := sameList_cons.mp h'
      sameList_cons.mpr ⟨hsocket.trans hsocket', same_trans htree htree',
        sameList_trans hrest hrest'⟩

end

/-! ## Forests -/

/-- What goes is a tree that is the same. -/
theorem perm_of_removeSame? {t : Tree} {us rest : List Tree}
    (h : t.removeSame? us = some rest) : ∃ u, t.same u = true ∧ us.Perm (u :: rest) := by
  induction us generalizing rest with
  | nil => cases h
  | cons u us ih =>
      rw [removeSame?] at h
      split at h
      next hsame =>
        cases h
        exact ⟨u, hsame, .refl _⟩
      next =>
        obtain ⟨behind, hbehind, rfl⟩ := Option.map_eq_some_iff.mp h
        obtain ⟨v, hv, hperm⟩ := ih hbehind
        exact ⟨v, hv, (hperm.cons u).trans (.swap v u behind)⟩

/-- A tree that is the same is found and taken out. -/
theorem exists_removeSame? {t u : Tree} {us : List Tree} (hu : u ∈ us) (h : t.same u = true) :
    ∃ rest, t.removeSame? us = some rest := by
  induction us with
  | nil => cases hu
  | cons v us ih =>
      rw [removeSame?]
      split
      next => exact ⟨us, rfl⟩
      next hdiffers =>
        have hne : u ≠ v := fun heq => hdiffers (heq ▸ h)
        obtain ⟨rest, hrest⟩ := ih ((List.mem_cons.mp hu).resolve_left hne)
        exact ⟨v :: rest, by rw [hrest]; rfl⟩

/-- Whichever tree is taken as the partner of the first one, the others can be paired off. -/
theorem exists_paired_rest {t u v : Tree} {ts us rest : List Tree} (htu : t.same u = true)
    (hpaired : List.Forall₂ (fun t u => t.same u = true) ts us) (htv : t.same v = true)
    (hperm : (u :: us).Perm (v :: rest)) :
    ∃ paired, List.Forall₂ (fun t u => t.same u = true) ts paired ∧ paired.Perm rest := by
  rcases List.mem_cons.mp (hperm.mem_iff.mpr List.mem_cons_self) with rfl | hv
  · exact ⟨us, hpaired, hperm.cons_inv⟩
  · -- The tree that was paired with `v` gets `u` instead.
    obtain ⟨before, behind, rfl⟩ := List.append_of_mem hv
    have hrest : (u :: (before ++ behind)).Perm rest := by
      refine List.Perm.cons_inv (a := v) ((List.Perm.swap u v _).trans ?_)
      exact (List.perm_middle.symm.cons u).trans hperm
    have hmoved : Relation.Comp (List.Forall₂ fun t u => t.same u = true) List.Perm ts
        (v :: (before ++ behind)) :=
      ⟨_, hpaired, List.perm_middle⟩
    rw [List.forall₂_comp_perm_eq_perm_comp_forall₂] at hmoved
    obtain ⟨_, hts, hcons⟩ := hmoved
    obtain ⟨w, others, hw, hothers, rfl⟩ := List.forall₂_cons_right_iff.mp hcons
    have hwu : w.same u = true := same_trans hw (same_trans (same_symm htv) htu)
    obtain ⟨paired, hpaired', hperm'⟩ := List.perm_comp_forall₂ hts (.cons hwu hothers)
    exact ⟨paired, hpaired', hperm'.trans hrest⟩

/-- Two forests are found the same exactly when their trees can be paired off so that paired ones
are the same. -/
theorem sameForest_iff {ts us : List Tree} : sameForest ts us = true ↔
    ∃ paired, List.Forall₂ (fun t u => t.same u = true) ts paired ∧ paired.Perm us := by
  induction ts generalizing us with
  | nil =>
      rw [sameForest, List.isEmpty_iff]
      constructor
      · rintro rfl
        exact ⟨[], .nil, .nil⟩
      · rintro ⟨paired, hpaired, hperm⟩
        rw [List.forall₂_nil_left_iff.mp hpaired] at hperm
        exact List.nil_perm.mp hperm
  | cons t ts ih =>
      rw [sameForest]
      constructor
      · intro h
        split at h
        next => cases h
        next rest hremoved =>
          obtain ⟨u, hu, hperm⟩ := perm_of_removeSame? hremoved
          obtain ⟨paired, hpaired, hrest⟩ := ih.mp h
          exact ⟨u :: paired, .cons hu hpaired, (hrest.cons u).trans hperm.symm⟩
      · rintro ⟨_, hall, hperm⟩
        -- The search may pick another partner than the pairing does; the rest can still be paired.
        obtain ⟨u, paired, hu, hpaired, rfl⟩ := List.forall₂_cons_left_iff.mp hall
        obtain ⟨rest, hremoved⟩ := exists_removeSame? (hperm.mem_iff.mp List.mem_cons_self) hu
        obtain ⟨v, hv, hrest⟩ := perm_of_removeSame? hremoved
        rw [hremoved]
        exact ih.mpr (exists_paired_rest hu hpaired hv (hperm.trans hrest))

end Tree

end TaskDiagram
