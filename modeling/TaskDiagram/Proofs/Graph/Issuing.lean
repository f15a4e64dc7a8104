import TaskDiagram.Grammar.Standard
import TaskDiagram.Graph.OfProgram
import TaskDiagram.Proofs.Graph.Removal

/-! # Ids are handed out once

The next id grows with every new block and never falls, so it is above all ids that were handed out,
whether their blocks are still there or not. An id below it whose block is gone stays dead: no edit
puts a block there again, and every edit that names it is refused.
-/

namespace TaskDiagram

/-- The blocks an edit names, in the order in which they are looked up. -/
def GraphEdit.subjects : GraphEdit → List BlockId
  | .insert _ => []
  | .setField id _ _ => [id]
  | .clearField id _ => [id]
  | .setPosition id _ => [id]
  | .connect parent _ child => [parent, child]
  | .disconnect child => [child]
  | .remove id => [id]
  | .pin _ => []

namespace Graph

/-- The diagram after an edit, or why the edit is refused. -/
def attempt (g : Graph) : GraphEdit → Except GraphError Graph
  | .insert kind => .ok (g.insert kind)
  | .setField id name value => g.setField id name value
  | .clearField id name => (g.clearField id name).map (·.2)
  | .setPosition id position => g.setPosition id position
  | .connect parent socket child => g.connect parent socket child
  | .disconnect child => (g.disconnect child).map (·.2)
  | .remove id => (g.remove id).map (·.2)
  | .pin warning => .ok (g.pin warning)

/-- The ids that edits in sequence hand out to new blocks. -/
def issued : Graph → List GraphEdit → List BlockId
  | _, [] => []
  | g, .insert kind :: rest =>
      let (id, inserted) := Build.insert kind g
      id :: issued inserted rest
  | g, e :: rest => issued (g.edit e) rest

/-- The first of some blocks that is not there. -/
def firstUnknown? (g : Graph) (ids : List BlockId) : Option BlockId :=
  ids.find? fun id => (g.block? id).isNone

/-- An id that was handed out and whose block is gone. -/
structure Retired (g : Graph) (id : BlockId) : Prop where
  issued : id < g.nextId
  dead : ¬ g.Live id

variable {g g' : Graph} {id : BlockId} {e : GraphEdit}

/-! ## One edit -/

theorem edit_eq_attempt (g : Graph) (e : GraphEdit) :
    g.edit e = (g.attempt e).toOption.getD g := by
  cases e with
  | clearField id name =>
      rw [edit, attempt]
      cases g.clearField id name <;> rfl
  | disconnect child =>
      rw [edit, attempt]
      cases g.disconnect child <;> rfl
  | remove id =>
      rw [edit, attempt]
      cases g.remove id <;> rfl
  | _ => rfl

theorem nextId_step (h : g.Step g') : g.nextId ≤ g'.nextId := by
  cases h with
  | same => exact Nat.le_refl _
  | insert kind => exact (nextId_insert g kind) ▸ Nat.le_succ _
  | setField => exact (nextId_modify ..).ge
  | clearField => exact (nextId_modify ..).ge
  | setPosition => exact (nextId_modify ..).ge
  | plug => exact (nextId_relink ..).ge
  | unplug => exact (nextId_relink ..).ge
  | erase id =>
      have hsize : (g.loosen id).nextId = g.nextId := nextId_loosen g id
      simp only [nextId, erase, Array.size_mapIdx] at hsize ⊢
      exact hsize.ge
  | pin => exact Nat.le_refl _

/-- No edit puts a block where there was none, but at the next id. -/
theorem live_of_step (h : g.Step g') (hlive : g'.Live id) : g.Live id ∨ id = g.nextId := by
  cases h with
  | same => exact .inl hlive
  | insert kind =>
      by_cases hid : id = g.nextId
      · exact .inr hid
      · rw [Live, block?_insert, if_neg hid] at hlive
        exact .inl hlive
  | setField => exact .inl (by simpa [Live, block?_modify] using hlive)
  | clearField => exact .inl (by simpa [Live, block?_modify] using hlive)
  | setPosition => exact .inl (by simpa [Live, block?_modify] using hlive)
  | plug => exact .inl (by simpa [live_iff_kind?, Graph.plug] using hlive)
  | unplug => exact .inl (by simpa [live_iff_kind?, Graph.unplug] using hlive)
  | erase other =>
      rw [Live, block?_erase] at hlive
      split at hlive
      · cases hlive
      · exact .inl (live_loosen_iff.mp hlive)
  | pin => exact .inl hlive

/-- A retired id is below the next one, so it is not the one at which a block can appear. -/
theorem Retired.step (h : g.Retired id) (hstep : g.Step g') : g'.Retired id where
  issued := h.issued.trans_le (nextId_step hstep)
  dead hlive := by
    rcases live_of_step hstep hlive with hbefore | hnext
    · exact h.dead hbefore
    · exact Nat.ne_of_lt h.issued hnext

/-- An edit that names a block that is not there is refused for the first such block. -/
theorem attempt_of_unknown (h : g.firstUnknown? e.subjects = some id) :
    g.attempt e = .error (.unknownBlock id) := by
  have hrequire : ∀ other, g.block? other = none →
      g.require other = .error (.unknownBlock other) := by
    intro other hnone
    rw [require, hnone]
  -- An edit that names one block begins by looking it up.
  have hone : ∀ {α : Type} {other : BlockId} {rest : Block → Except GraphError α},
      g.firstUnknown? [other] = some id →
        (g.require other >>= rest) = .error (.unknownBlock id) := by
    intro α other rest hfirst
    obtain ⟨hnone, rfl⟩ : g.block? other = none ∧ other = id := by
      simpa [firstUnknown?] using hfirst
    rw [hrequire other hnone]
    rfl
  cases e with
  | insert => cases h
  | pin => cases h
  | setField other name value => exact hone h
  | setPosition other position => exact hone h
  | clearField other name =>
      rw [attempt, clearField, hone h]
      rfl
  | disconnect child =>
      rw [attempt, disconnect, hone h]
      rfl
  | remove other =>
      rw [attempt, remove, hone h]
      rfl
  | connect parent socket child =>
      cases hparent : g.block? parent with
      | none =>
          have hfirst : g.firstUnknown? [parent] = some id := by
            simpa [firstUnknown?, GraphEdit.subjects, hparent] using h
          exact hone hfirst
      | some p =>
          have hfirst : g.firstUnknown? [child] = some id := by
            simpa [firstUnknown?, GraphEdit.subjects, hparent] using h
          have hp : g.require parent = .ok p := by rw [require, hparent]
          rw [attempt, connect, hp]
          exact hone hfirst

/-- An edit that names a retired block is refused and changes nothing. -/
theorem Retired.refused (h : g.Retired id) (hnamed : id ∈ e.subjects) :
    ∃ unknown, g.firstUnknown? e.subjects = some unknown ∧
      g.attempt e = .error (.unknownBlock unknown) ∧ g.edit e = g := by
  have hunknown : (g.firstUnknown? e.subjects).isSome :=
    List.find?_isSome.mpr ⟨id, hnamed, by simpa [Live] using h.dead⟩
  obtain ⟨unknown, hfirst⟩ := Option.isSome_iff_exists.mp hunknown
  have hrefused := attempt_of_unknown hfirst
  refine ⟨unknown, hfirst, hrefused, ?_⟩
  rw [edit_eq_attempt, hrefused]
  rfl

/-- Only blocks that are there hang below others. -/
theorem live_of_climb {ancestor : BlockId} (hlive : g.Live ancestor) {n : Nat}
    (h : g.climb n id = some ancestor) : g.Live id := by
  cases n with
  | zero =>
      cases h
      exact hlive
  | succ n =>
      obtain ⟨place, hplace, -⟩ := Option.bind_eq_some_iff.mp h
      exact live_of_parent? hplace

/-! ## Runs -/

theorem nextId_run (g : Graph) (edits : List GraphEdit) : g.nextId ≤ (g.run edits).nextId := by
  induction edits generalizing g with
  | nil => exact Nat.le_refl _
  | cons e rest ih => exact (nextId_step (step_edit g e)).trans (ih (g.edit e))

theorem Retired.run (h : g.Retired id) (edits : List GraphEdit) : (g.run edits).Retired id := by
  induction edits generalizing g with
  | nil => exact h
  | cons e rest ih => exact ih (h.step (step_edit g e))

/-- Whatever was handed out is below the next id. -/
theorem lt_nextId_of_issued (g : Graph) (edits : List GraphEdit) :
    ∀ id ∈ g.issued edits, id < (g.run edits).nextId := by
  induction edits generalizing g with
  | nil => exact fun _ hid => absurd hid List.not_mem_nil
  | cons e rest ih =>
      intro id hid
      cases e with
      | insert kind =>
          rcases List.mem_cons.mp hid with rfl | hlater
          · exact (nextId_insert g kind ▸ Nat.lt_succ_self g.nextId : g.nextId < _).trans_le
              (nextId_run (g.insert kind) rest)
          · exact ih (g.insert kind) id hlater
      | _ => exact ih _ id hid

/-- After any edits, a new block gets an id above all that were handed out before. Once a removal
has taken a block, every edit that names it is refused, however many edits later, because a block
that is not there is named, and then nothing changes. -/
theorem ids_are_never_reused (grammar : Grammar) (edits : List GraphEdit) :
    let g := (empty grammar).run edits
    (∀ kind, ∀ id ∈ (empty grammar).issued edits, id < (Build.insert kind g).1) ∧
    ∀ id gone g', g.remove id = .ok (gone, g') → ∀ later, ∀ dead ∈ gone, ∀ e : GraphEdit,
      dead ∈ e.subjects →
        ¬ (g'.run later).Live dead ∧
        ∃ unknown, (g'.run later).firstUnknown? e.subjects = some unknown ∧
          (g'.run later).attempt e = .error (.unknownBlock unknown) ∧
          (g'.run later).edit e = g'.run later := by
  intro g
  have h : g.IsForest := (isForest_empty grammar).run edits
  refine ⟨fun _ => lt_nextId_of_issued (empty grammar) edits, ?_⟩
  intro id gone g' hremove later dead hgone e hnamed
  obtain ⟨hid, rfl, rfl⟩ := remove_eq_ok_iff.mp hremove
  have hremoved := h.removed_erase hid
  rw [h.descendants_loosen] at hgone hremoved ⊢
  have hlive : g.Live dead := by
    obtain ⟨n, hn⟩ := (hremoved.mem_iff dead).mp hgone
    exact live_of_climb hid hn
  have hissued := hremoved.nextId.symm ▸ hlive.lt_nextId
  have hretired := Retired.run ⟨hissued, hremoved.dead dead hgone⟩ later
  exact ⟨hretired.dead, hretired.refused hnamed⟩

/-- An object that went with the pick it was plugged into cannot be plugged into another one. -/
theorem removed_object_stays_dead :
    let g := (empty .standard).run [.insert .pick, .insert .objectRef, .connect 0 .object 1]
    let relink := GraphEdit.connect 2 .object 1
    ∃ g', g.remove 0 = .ok ([0, 1], g') ∧ 1 ∈ relink.subjects ∧
      (∀ id ∈ (empty .standard).issued [.insert .pick, .insert .objectRef, .connect 0 .object 1],
        id < (Build.insert .pick g).1) ∧
      ∃ unknown, (g'.run [.insert .pick]).firstUnknown? relink.subjects = some unknown ∧
        (g'.run [.insert .pick]).attempt relink = .error (.unknownBlock unknown) ∧
        (g'.run [.insert .pick]).edit relink = g'.run [.insert .pick] := by
  intro g relink
  obtain ⟨hgrows, hdead⟩ := ids_are_never_reused .standard
    [.insert .pick, .insert .objectRef, .connect 0 .object 1]
  have hnamed : 1 ∈ relink.subjects := List.mem_cons_of_mem _ List.mem_cons_self
  refine ⟨_, rfl, hnamed, hgrows .pick, ?_⟩
  exact (hdead 0 [0, 1] _ rfl [.insert .pick] 1 (by decide) relink hnamed).2

end Graph

end TaskDiagram
