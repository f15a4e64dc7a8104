import Mathlib.Data.List.Pairwise
import TaskDiagram.Proofs.Workspace.Numbering

/-! # Trees that are loaded without a report

What is plugged into a node is listed in the order of the sockets, where only `next` may be listed
twice. So a tree of which nothing is reported fits the grammar: every field is admitted, every link
is accepted, and no socket is asked for again once it is filled.
-/

namespace TaskDiagram

theorem SocketName.index_injective {a b : SocketName} (h : a.index = b.index) : a = b := by
  revert h
  cases a <;> cases b <;> decide

namespace Tree

mutual

/-- What is plugged in is listed in the order of the sockets, all the way down. -/
def Ordered : Tree → Prop
  | node _ _ inputs => (inputs.Pairwise fun a b => a.1.index ≤ b.1.index) ∧ OrderedInputs inputs

def OrderedInputs : List (SocketName × Tree) → Prop
  | [] => True
  | (_, tree) :: rest => tree.Ordered ∧ OrderedInputs rest

end

/-- Lists of what is plugged in are in order together when each is. -/
theorem orderedInputs_append {first second : List (SocketName × Tree)}
    (h : OrderedInputs first) (h' : OrderedInputs second) : OrderedInputs (first ++ second) := by
  induction first with
  | nil => exact h'
  | cons entry rest ih => exact ⟨h.1, ih h.2⟩

theorem map_fst_inSocket (socket : SocketName) (content : Option Tree) :
    List.Sublist ((inSocket socket content).map (·.1)) [socket] := by
  cases content with
  | none => exact List.nil_sublist _
  | some tree => exact List.Sublist.refl _

end Tree

/-- What is plugged into a node is listed in the order of the sockets, each at most once. -/
theorem map_fst_socketTrees (inputs : Sockets Node) :
    List.Sublist ((socketTrees inputs).map (·.1)) SocketName.all := by
  obtain ⟨object, location, action, when, body, otherwise, next⟩ := inputs
  have hsocket := fun socket content => Tree.map_fst_inSocket socket (optionTree content)
  simp only [socketTrees, List.map_append]
  exact ((((((hsocket _ object).append (hsocket _ location)).append (hsocket _ action)).append
    (hsocket _ when)).append (hsocket _ body)).append (hsocket _ otherwise)).append
      (hsocket _ next)

mutual

/-- The tree of a node is in order. -/
theorem Node.ordered_tree : ∀ node : Node, node.tree.Ordered
  | ⟨kind, fields, x, y, next, inputs⟩ => by
      have hall : (SocketName.all ++ [SocketName.next]).Pairwise fun a b => a.index ≤ b.index := by
        decide
      have hsockets := (map_fst_socketTrees inputs).append
        (Tree.map_fst_inSocket .next (optionTree next))
      rw [← List.map_append] at hsockets
      have hsorted := hall.sublist hsockets
      rw [List.pairwise_map] at hsorted
      unfold Node.tree
      exact ⟨hsorted,
        Tree.orderedInputs_append (ordered_socketTrees inputs) (ordered_inSocket .next next)⟩

theorem ordered_inSocket (socket : SocketName) : ∀ node : Option Node,
    Tree.OrderedInputs (Tree.inSocket socket (optionTree node))
  | none => trivial
  | some node => ⟨node.ordered_tree, trivial⟩

theorem ordered_socketTrees : ∀ inputs : Sockets Node, Tree.OrderedInputs (socketTrees inputs)
  | ⟨object, location, action, when, body, otherwise, next⟩ => by
      unfold socketTrees
      apply Tree.orderedInputs_append _ (ordered_inSocket .next next)
      apply Tree.orderedInputs_append _ (ordered_inSocket .otherwise otherwise)
      apply Tree.orderedInputs_append _ (ordered_inSocket .body body)
      apply Tree.orderedInputs_append _ (ordered_inSocket .when when)
      apply Tree.orderedInputs_append _ (ordered_inSocket .action action)
      apply Tree.orderedInputs_append _ (ordered_inSocket .location location)
      exact ordered_inSocket .object object

end

/-! ## Nothing to report -/

variable {grammar : Grammar}

theorem Numbered.reports_eq_nil {q : Numbered} :
    q.reports grammar = [] ↔
      grammar.fieldReports q.kind q.fields = [] ∧ q.linkReports grammar = [] := by
  rw [Numbered.reports, Graph.reportsAt, List.map_eq_nil_iff, List.append_eq_nil_iff]

/-- A link is made exactly if it is not reported. -/
theorem Numbered.holds_of_linkReports {q : Numbered} {hook : Hook} (hhook : q.hook = some hook)
    (h : q.linkReports grammar = []) : hook.holds grammar q.kind = true := by
  rw [Numbered.linkReports, hhook, Option.bind_some] at h
  by_contra hholds
  rw [if_neg hholds] at h
  cases h

namespace Tree

mutual

/-- A tree of whose nodes nothing is reported fits the grammar. -/
theorem fits_of_silent : ∀ (tree : Tree) {id : BlockId} {hook : Option Hook}, tree.Ordered →
    (∀ q ∈ tree.numbered grammar id hook, q.reports grammar = []) → tree.Fits grammar
  | node kind fields inputs, id, hook, hordered, hsilent => by
      obtain ⟨hsorted, hbelow⟩ := hordered
      obtain ⟨hhead, hrest⟩ := List.forall_mem_cons.mp hsilent
      have hfields := (Numbered.reports_eq_nil.mp hhead).1
      exact ⟨Grammar.admits_of_fieldReports hfields,
        (fitInputs_of_silent inputs hsorted hbelow hrest).1⟩

/-- Without a report all sockets are free when they are asked for, so none is asked for twice. -/
theorem fitInputs_of_silent : ∀ (inputs : List (SocketName × Tree)) {owner : BlockId}
    {kind : BlockKind} {filled : List SocketName} {id : BlockId},
    (inputs.Pairwise fun a b => a.1.index ≤ b.1.index) → OrderedInputs inputs →
    (∀ q ∈ numberedInputs grammar owner kind filled id inputs, q.reports grammar = []) →
    FitInputs grammar kind inputs ∧ ∀ entry ∈ inputs, entry.1 ∉ filled
  | [], _, _, _, _, _, _, _ => ⟨trivial, by simp⟩
  | (socket, tree) :: rest, owner, kind, filled, id, hsorted, hordered, hsilent => by
      obtain ⟨hle, hsorted⟩ := List.pairwise_cons.mp hsorted
      rw [numberedInputs, List.forall_mem_append] at hsilent
      obtain ⟨htree, hrest⟩ := hsilent
      have hhead := htree _ (numbered_eq grammar id _ tree ▸ List.mem_cons_self)
      have hholds := Numbered.holds_of_linkReports rfl (Numbered.reports_eq_nil.mp hhead).2
      rw [if_pos hholds] at hrest
      obtain ⟨hfits, hfree⟩ := fitInputs_of_silent rest hsorted hordered.2 hrest
      obtain ⟨hopen, haccepts⟩ := Bool.and_eq_true_iff.mp hholds
      have hnew : socket ∉ filled := by simpa using hopen
      refine ⟨⟨haccepts, fits_of_silent tree hordered.1 htree, fun entry hentry => ?_, hfits⟩, ?_⟩
      · -- The sockets behind are not before this one, and none of them is this one.
        refine Nat.lt_of_le_of_ne (hle entry hentry) fun heq => hfree entry hentry ?_
        rw [← SocketName.index_injective heq]
        exact List.mem_cons_self
      · rw [List.forall_mem_cons]
        exact ⟨hnew, fun entry hentry hmem => hfree entry hentry (List.mem_cons_of_mem _ hmem)⟩

end

/-- Trees of whose nodes nothing is reported fit the grammar. -/
theorem fits_of_silent_forest {trees : List Tree} {id : BlockId}
    (hordered : ∀ tree ∈ trees, tree.Ordered)
    (hsilent : ∀ q ∈ numberedForest grammar id trees, q.reports grammar = []) :
    ∀ tree ∈ trees, tree.Fits grammar := by
  induction trees generalizing id with
  | nil => simp
  | cons tree rest ih =>
      obtain ⟨hfirst, hordered⟩ := List.forall_mem_cons.mp hordered
      rw [numberedForest, List.forall_mem_append] at hsilent
      rw [List.forall_mem_cons]
      exact ⟨fits_of_silent tree hfirst hsilent.1, ih hordered hsilent.2⟩

end Tree

end TaskDiagram
