import TaskDiagram.Graph.Validation
import TaskDiagram.Proofs.Graph.Fields

/-! # Diagrams under the standard grammar

What holds of every diagram that edits lead to under the standard grammar, whatever is
found about it: its links and fields are those the grammar speaks of. In particular a
chain is not left for a step again once it has reached a logic block, and steps and
logic blocks sit at the top level, behind one another, or in a branch of a logic block.
-/

namespace TaskDiagram.Graph

variable {g : Graph}

/-- A diagram that edits lead to under the standard grammar. -/
structure Edited (g : Graph) : Prop where
  forest : g.IsForest
  grammar : g.grammar = .standard
  fields : g.FieldsAdmitted

theorem edited_run (edits : List GraphEdit) : ((empty .standard).run edits).Edited where
  forest := (isForest_empty .standard).run edits
  grammar := grammar_run _ edits
  fields := by
    have hempty : (empty .standard).FieldsAdmitted := by
      intro id b hb
      rw [block?_empty] at hb
      cases hb
    exact hempty.run Grammar.defaultsAdmitted_standard edits

namespace Edited

variable {id parent child : BlockId} {kind : BlockKind} {socket : SocketName}

/-! ## Links -/

theorem accepts (h : g.Edited) (hkind : g.kind? parent = some kind)
    (hc : g.child? parent socket = some child) :
    ∃ below, g.kind? child = some below ∧ Grammar.standard.accepts kind socket below = true := by
  obtain ⟨p, c, hp, hc, haccepts⟩ := h.forest.accepted hc
  obtain rfl := Option.some.inj (hkind.symm.trans hp)
  exact ⟨c, hc, h.grammar ▸ haccepts⟩

/-- Nothing is in a socket that accepts nothing. -/
theorem child?_eq_none (h : g.Edited) (hkind : g.kind? id = some kind)
    (hnone : Grammar.standard.accepted kind socket = []) : g.child? id socket = none := by
  cases hc : g.child? id socket with
  | none => rfl
  | some child =>
      obtain ⟨below, -, haccepts⟩ := h.accepts hkind hc
      rw [Grammar.accepts, hnone] at haccepts
      cases haccepts

/-- Behind a logic block there is nothing or another one. -/
theorem isLogic_next (h : g.Edited) (hkind : g.kind? id = some kind)
    (hlogic : kind.isLogic = true) {next : BlockId} (hnext : g.child? id .next = some next) :
    ∃ below, g.kind? next = some below ∧ below.isLogic = true := by
  obtain ⟨below, hbelow, haccepts⟩ := h.accepts hkind hnext
  refine ⟨below, hbelow, ?_⟩
  revert hlogic haccepts
  cases kind <;> cases below <;> decide

/-- Only logic blocks hold steps and other logic blocks. -/
theorem mem_branchSockets_of_accepts {below : BlockKind} (hne : socket ≠ .next)
    (haccepts : Grammar.standard.accepts kind socket below = true)
    (hchained : below.step?.isSome ∨ below.isLogic = true) :
    kind.isLogic = true ∧ socket ∈ branchSockets kind := by
  have hall : ∀ below ∈ Grammar.standard.accepted kind socket,
      (below.step?.isSome ∨ below.isLogic = true) → socket ≠ .next →
        kind.isLogic = true ∧ socket ∈ branchSockets kind := by
    cases kind <;> cases socket <;> decide
  exact hall below (List.contains_iff_mem.mp haccepts) hchained hne

/-! ## Fields -/

theorem checkField (h : g.Edited) {b : Block} (hb : g.block? id = some b) {name : String}
    {value : FieldValue} (hvalue : b.fields.get? name = some value) :
    Grammar.standard.checkField b.kind name value = .ok () :=
  h.grammar ▸ h.fields id b hb name value hvalue

/-- A block of a kind without fields has none. -/
theorem no_fields (h : g.Edited) {b : Block} (hb : g.block? id = some b)
    (hnone : (Grammar.standardSpec b.kind).fields = []) : b.fields = .empty := by
  refine TextMap.ext_get? fun name => ?_
  cases hvalue : b.fields.get? name with
  | none => rfl
  | some value =>
      have hcheck := h.checkField hb hvalue
      have hfield : Grammar.standard.field? b.kind name = none := by
        simp [Grammar.field?, Grammar.standard, hnone]
      unfold Grammar.checkField at hcheck
      rw [hfield] at hcheck
      cases hcheck

end Edited

end TaskDiagram.Graph
