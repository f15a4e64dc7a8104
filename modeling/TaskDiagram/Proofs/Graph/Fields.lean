import TaskDiagram.Grammar.Standard
import TaskDiagram.Proofs.Graph.Edits
import TaskDiagram.Proofs.TextMap

/-! # Fields of edited diagrams

A field is only ever set to a value its grammar admits, so in every diagram that edits
lead to the fields are those of the grammar. Under the standard grammar that leaves the
names and ids of library blocks and the counts of repetitions.
-/

namespace TaskDiagram

namespace Grammar

/-- Every field holds a value that may be put into it. -/
def Admits (grammar : Grammar) (kind : BlockKind) (fields : FieldMap) : Prop :=
  ∀ name value, fields.get? name = some value → grammar.checkField kind name value = .ok ()

theorem admits_empty (grammar : Grammar) (kind : BlockKind) : grammar.Admits kind .empty := nofun

/-- Fields stay admitted when a value is put in that the grammar takes for its field. -/
theorem Admits.insert {grammar : Grammar} {kind : BlockKind} {fields : FieldMap}
    (h : grammar.Admits kind fields) {name : String} {value : FieldValue}
    (hvalue : grammar.checkField kind name value = .ok ()) :
    grammar.Admits kind (fields.insert name value) := by
  intro other found hfound
  rw [TextMap.get?_insert] at hfound
  split at hfound
  next heq =>
    obtain rfl := Option.some.inj hfound
    exact heq ▸ hvalue
  next => exact h other found hfound

theorem Admits.erase {grammar : Grammar} {kind : BlockKind} {fields : FieldMap}
    (h : grammar.Admits kind fields) (name : String) : grammar.Admits kind (fields.erase name) := by
  intro other found hfound
  rw [TextMap.get?_erase] at hfound
  split at hfound
  · cases hfound
  · exact h other found hfound

/-- The fields of new blocks are admitted. -/
def DefaultsAdmitted (grammar : Grammar) : Prop :=
  ∀ kind, grammar.Admits kind (grammar.defaults kind)

theorem defaultsAdmitted_standard : standard.DefaultsAdmitted := by
  intro kind
  cases kind with
  | repeated => exact (admits_empty _ _).insert rfl
  | _ => exact admits_empty _ _

end Grammar

namespace Graph

variable {g g' : Graph}

/-- The fields of every block are admitted. -/
def FieldsAdmitted (g : Graph) : Prop :=
  ∀ id b, g.block? id = some b → g.grammar.Admits b.kind b.fields

/-- Changes that add no block and touch no field. -/
theorem FieldsAdmitted.of_same_fields (h : g.FieldsAdmitted) (hgrammar : g'.grammar = g.grammar)
    (hblock : ∀ id b, g'.block? id = some b →
      ∃ old, g.block? id = some old ∧ b.kind = old.kind ∧ b.fields = old.fields) :
    g'.FieldsAdmitted := by
  intro id b hb
  obtain ⟨old, hold, hkind, hfields⟩ := hblock id b hb
  rw [hgrammar, hkind, hfields]
  exact h id old hold

/-- A change of one block. -/
theorem FieldsAdmitted.modify (h : g.FieldsAdmitted) (target : BlockId) {f : Block → Block}
    (hf : ∀ b, g.block? target = some b → g.grammar.Admits (f b).kind (f b).fields) :
    (g.modify target f).FieldsAdmitted := by
  intro id b hb
  rw [block?_modify] at hb
  obtain ⟨old, hold, rfl⟩ := Option.map_eq_some_iff.mp hb
  rw [grammar_modify]
  split
  next heq => exact hf old (heq ▸ hold)
  next => exact h id old hold

theorem FieldsAdmitted.relink (h : g.FieldsAdmitted) (parent : BlockId) (socket : SocketName)
    (child : BlockId) (content : Option BlockId) (place : Option (BlockId × SocketName))
    (roots : List BlockId) : (g.relink parent socket child content place roots).FieldsAdmitted := by
  apply h.of_same_fields (grammar_relink _ _ _ _ _ _ _)
  intro id b hb
  rw [block?_relink] at hb
  obtain ⟨old, hold, rfl⟩ := Option.map_eq_some_iff.mp hb
  exact ⟨old, hold, rfl, rfl⟩

/-- Every step keeps the fields admitted, when those of new blocks are. -/
theorem FieldsAdmitted.step (h : g.FieldsAdmitted) (hdefaults : g.grammar.DefaultsAdmitted)
    (hstep : g.Step g') : g'.FieldsAdmitted := by
  cases hstep with
  | same => exact h
  | pin => exact h
  | insert kind =>
      intro id b hb
      rw [block?_insert] at hb
      split at hb
      · obtain rfl := Option.some.inj hb
        exact hdefaults kind
      · exact h id b hb
  | setField id kind name value hkind hvalue =>
      apply h.modify id
      intro b hb
      rw [kind?, hb] at hkind
      obtain rfl := Option.some.inj hkind
      exact (h id b hb).insert hvalue
  | clearField id name => exact h.modify id fun b hb => (h id b hb).erase name
  | setPosition id => exact h.modify id fun b hb => h id b hb
  | plug => exact h.relink _ _ _ _ _ _
  | unplug => exact h.relink _ _ _ _ _ _
  | erase id =>
      have hloosen : (g.loosen id).FieldsAdmitted := by
        unfold loosen
        split
        · exact h
        · exact h.relink _ _ _ _ _ _
      refine hloosen.of_same_fields rfl fun other b hb => ?_
      rw [block?_erase] at hb
      split at hb
      · cases hb
      · exact ⟨b, hb, rfl, rfl⟩

/-- Edits in sequence keep the fields admitted, by induction on the edits. -/
theorem FieldsAdmitted.run (h : g.FieldsAdmitted) (hdefaults : g.grammar.DefaultsAdmitted)
    (edits : List GraphEdit) : (g.run edits).FieldsAdmitted := by
  induction edits generalizing g with
  | nil => exact h
  | cons e edits ih =>
      have hstep := step_edit g e
      exact ih (h.step hdefaults hstep) (grammar_step hstep ▸ hdefaults)

end Graph

end TaskDiagram
