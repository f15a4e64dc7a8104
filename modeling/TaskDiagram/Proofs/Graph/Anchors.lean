import TaskDiagram.Proofs.Graph.Branches
import TaskDiagram.Proofs.Graph.Removal

/-! # Findings belong to blocks that are there

Validation finds something only about blocks it has looked up, so of what it reports nothing but
the recorded findings could point at a block that is gone. They do not: only a removal takes blocks
away, and it drops the findings about them.
-/

namespace TaskDiagram

/-- The block a finding belongs to is there, if it belongs to one. -/
def Warning.Anchored (g : Graph) (w : Warning) : Prop := ∀ id ∈ w.block, g.Live id

/-- A finding stays with its block as long as the block stays. -/
theorem Warning.Anchored.mono {g g' : Graph} {w : Warning} (h : w.Anchored g)
    (hlive : ∀ id, g.Live id → g'.Live id) : w.Anchored g' :=
  fun id hid => hlive id (h id hid)

namespace Graph

/-- Every recorded finding belongs to a block that is there, or to none. -/
def Anchored (g : Graph) : Prop := ∀ w ∈ g.pinned, w.Anchored g

variable {g g' : Graph} {id : BlockId} {kind : WarningKind} {ids : List BlockId}

theorem anchored_about : (Warning.about id kind).Anchored g ↔ g.Live id := by
  simp [Warning.Anchored, Warning.about]

/-! ## Edits -/

theorem anchored_empty (grammar : Grammar) : (empty grammar).Anchored :=
  fun _ hw => absurd hw List.not_mem_nil

/-- Where no block goes, nothing that is recorded comes loose. -/
theorem Anchored.of_live (h : g.Anchored) (hpinned : g'.pinned = g.pinned)
    (hlive : ∀ id, g.Live id → g'.Live id) : g'.Anchored :=
  fun w hw => (h w (hpinned ▸ hw)).mono hlive

theorem Anchored.modify (h : g.Anchored) (id : BlockId) (f : Block → Block) :
    (g.modify id f).Anchored :=
  h.of_live (pinned_modify g id f) fun other hother => by
    simpa [Live, block?_modify] using hother

theorem Anchored.insert (h : g.Anchored) (kind : BlockKind) : (g.insert kind).Anchored :=
  h.of_live rfl fun other hother => by
    rw [Live, block?_insert]
    split
    · rfl
    · exact hother

theorem Anchored.plug (h : g.Anchored) (parent : BlockId) (socket : SocketName) (child : BlockId) :
    (g.plug parent socket child).Anchored :=
  h.of_live (pinned_relink ..) fun other hother => by
    simpa [live_iff_kind?, Graph.plug] using hother

theorem Anchored.unplug (h : g.Anchored) (parent : BlockId) (socket : SocketName)
    (child : BlockId) : (g.unplug parent socket child).Anchored :=
  h.of_live (pinned_relink ..) fun other hother => by
    simpa [live_iff_kind?, Graph.unplug] using hother

/-- Unplugging a block takes no block away. -/
theorem Anchored.loosen (h : g.Anchored) (id : BlockId) : (g.loosen id).Anchored :=
  h.of_live (pinned_loosen g id) fun _ => live_loosen_iff.mpr

/-- With blocks go the findings about them. -/
theorem Anchored.erase (h : g.Anchored) (gone : List BlockId) : (g.erase gone).Anchored := by
  intro w hw other hother
  rw [pinned_erase, List.mem_filter, decide_eq_true_iff] at hw
  rw [Live, block?_erase, if_neg (hw.2 other hother)]
  exact h w hw.1 other hother

/-- What is recorded must itself belong to a block that is there. -/
theorem Anchored.pin (h : g.Anchored) {w : Warning} (hw : w.Anchored g) : (g.pin w).Anchored := by
  intro other hother
  rcases List.mem_append.mp hother with hold | hnew
  · exact h other hold
  · rwa [List.mem_singleton.mp hnew]

/-! ## Validation -/

/-- What is found about a branch is about its blocks or about their owner. -/
theorem anchored_checkBranch {owner : Option BlockId} (howner : ∀ id ∈ owner, g.Live id) :
    ∀ w ∈ g.checkBranch owner ids, w.Anchored g := by
  intro w hw
  rcases List.mem_append.mp hw with hbranch | hmissing
  · obtain ⟨x, ⟨kind, hkind⟩, ⟨step, rfl⟩ | rfl⟩ := mem_branchFindings hbranch <;>
      exact anchored_about.mpr (live_of_kind? hkind)
  · obtain ⟨step, rfl⟩ := mem_missingSteps hmissing
    exact howner

/-- What is found about a block and its branches is about blocks that are there. -/
theorem anchored_blockFindings {b : Block} (hid : g.Live id) (catalog : Option Catalog) :
    ∀ w ∈ g.blockFindings catalog id b, w.Anchored g := by
  intro w hw
  simp only [blockFindings, List.mem_append, List.mem_flatMap] at hw
  rcases hw with ((hreference | hinput) | hcount) | ⟨socket, -, hbranch⟩
  · obtain ⟨entity, name, rfl⟩ := mem_referenceFindings hreference
    exact anchored_about.mpr hid
  · obtain ⟨input, rfl⟩ := mem_inputFindings hinput
    exact anchored_about.mpr hid
  · obtain rfl := mem_countFindings hcount
    exact anchored_about.mpr hid
  · exact anchored_checkBranch (fun other hother => Option.some.inj hother ▸ hid) w hbranch

/-- When the recorded findings belong to blocks that are there, all findings do. -/
theorem Anchored.validate (h : g.Anchored) (catalog : Option Catalog) :
    ∀ w ∈ g.validate catalog, w.Anchored g := by
  intro w hw
  simp only [Graph.validate, List.mem_append, List.mem_flatMap, Prod.exists,
    List.mem_filterMap] at hw
  rcases hw with ((hw | ⟨id, b, hb, hw⟩) | hw) | ⟨head, -, hw⟩
  · exact h w hw
  · have hid : g.Live id := by simp [Live, mem_blocks.mp hb]
    exact anchored_blockFindings hid catalog w hw
  · have howner : ∀ id ∈ (none : Option BlockId), g.Live id :=
      fun _ hnone => absurd hnone (Option.not_mem_none _)
    exact anchored_checkBranch howner w hw
  · obtain ⟨kind, hkind, rfl⟩ := Option.map_eq_some_iff.mp hw
    exact anchored_about.mpr (live_of_kind? hkind)

end Graph

end TaskDiagram
