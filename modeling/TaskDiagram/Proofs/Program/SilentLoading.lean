import TaskDiagram.Proofs.Graph.CleanRoots
import TaskDiagram.Proofs.Graph.Loading.Blocks
import TaskDiagram.Proofs.Graph.Loading.Run
import TaskDiagram.Proofs.Graph.TopLevel
import TaskDiagram.Proofs.Program.Leaves

/-! # Loading without findings

When nothing is found about a loaded diagram, every leaf that a block has a place for is
saved with the value it had. Controls in which nothing is set are passed over, and the
controls behind them move up.
-/

namespace TaskDiagram

/-! ## Where leaves go -/

/-- Whether the block of a control waits for an event. -/
def Control.Guarded (c : Control) : Prop := c.type = some .when ∨ c.type = some .whenOtherwise

/-- Whether the block of a control has a place for a leaf. -/
def Control.Holds (c : Control) : ControlLeaf → Prop
  | .type => True
  | .times => c.type = some .repeated
  | .eventType => c.Guarded
  | .target _ => c.Guarded ∧ c.event.bind (·.type) = some .findObject
  | .step _ _ => True
  | .otherwise _ _ => c.type = some .whenOtherwise

def Program.Holds (p : Program) : LeafPath → Prop
  | .step _ _ => True
  | .control index leaf => ∀ c ∈ p.controls[index]?, c.Holds leaf

/-- The path of a leaf once the controls in which nothing is set are gone. -/
def Program.shift (p : Program) : LeafPath → LeafPath
  | .step kind leaf => .step kind leaf
  | .control index leaf => .control ((p.controls.take index).countP (!·.isSkipped)) leaf

/-- What becomes of an entry is found behind what becomes of the entries before it. -/
theorem getElem?_filterMap_countP {α β : Type} {f : α → Option β} {keep : α → Bool} {l : List α}
    (h : ∀ a ∈ l, (f a).isSome = keep a) {index : Nat} {a : α} (ha : l[index]? = some a)
    (hkeep : keep a = true) : (l.filterMap f)[(l.take index).countP keep]? = f a := by
  induction l generalizing index with
  | nil => cases ha
  | cons first rest ih =>
      have hfirst := h first List.mem_cons_self
      cases index with
      | zero =>
          obtain rfl := Option.some.inj ha
          rw [hkeep] at hfirst
          obtain ⟨b, hb⟩ := Option.isSome_iff_exists.mp hfirst
          simp [hb]
      | succ index =>
          have hrest := ih (fun a ha => h a (List.mem_cons_of_mem _ ha)) ha
          rw [List.take_succ_cons, List.countP_cons, List.filterMap_cons]
          cases hf : f first with
          | none =>
              rw [hf] at hfirst
              simpa [← hfirst] using hrest
          | some b =>
              rw [hf] at hfirst
              simpa [← hfirst] using hrest

/-! ## Single records -/

/-- Steps of which nothing is refused are accepted. -/
theorem Steps.fit_of_no_refusal {s : Steps} {owner : BlockKind} {socket : SocketName}
    (h : s.refusal owner socket = []) : s.fit owner socket = true := by
  cases hfit : s.fit owner socket with
  | true => rfl
  | false =>
      unfold refusal at h
      cases hfirst : s.first? with
      | none => simp [fit, hfirst] at hfit
      | some first => simp [hfit, hfirst] at h

theorem Steps.exists_first? {s : Steps} (h : s.processing.isSome ∨ s.place.isSome) :
    ∃ kind, s.first? = some kind := by
  obtain ⟨pick, processing, place⟩ := s
  cases pick <;> cases processing <;> cases place <;> first | exact ⟨_, rfl⟩ | simp at h

namespace Event

variable {e : Event}

theorem type_normal (h : e.tree?.isSome) : e.normal.type = e.type := by
  obtain ⟨type, target⟩ := e
  cases type with
  | none => cases h
  | some type => cases type <;> first | rfl | cases h

/-- A search keeps the leaves of its object. -/
theorem target_normal (htype : e.type = some .findObject) (leaf : ReferenceLeaf) :
    e.normal.findObject.bind (·.leaf? leaf) = e.findObject.bind (·.leaf? leaf) := by
  obtain ⟨type, target⟩ := e
  obtain rfl : type = some .findObject := htype
  cases target with
  | none => simp [normal]
  | some r =>
      cases hblank : r.isBlank with
      | false => simp [normal, hblank]
      | true => simp [normal, hblank, Reference.isBlank_iff_leaf?.mp hblank leaf]

end Event

namespace Control

variable {c : Control} {kind : BlockKind}

/-- A control without a logic block would be reported if anything were set in it. -/
theorem isSkipped_of_no_findings (h : c.findings = []) (hkind : c.kind? = none) :
    c.isSkipped = true := by
  unfold findings at h
  rw [hkind] at h
  dsimp only at h
  split at h
  next hunset => simp [isSkipped, hunset.1, hunset.2]
  next => cases h

theorem kind?_of_isSkipped (h : c.isSkipped = true) : c.kind? = none := by
  rw [isSkipped, Bool.and_eq_true, Option.isNone_iff_eq_none] at h
  simp [kind?, h.1]

theorem no_complaints (h : c.findings = []) (hkind : c.kind? = some kind) :
    c.complaints kind = [] := by
  unfold findings at h
  rwa [hkind] at h

/-- A count that is changed would be reported. -/
theorem clamp_of_no_findings (h : c.findings = []) (hkind : c.kind? = some .repeated) :
    c.times.map clampCount = c.times := by
  have hcomplaints := no_complaints h hkind
  simp only [complaints, List.append_eq_nil_iff] at hcomplaints
  have hcount := hcomplaints.1.1.1
  cases htimes : c.times with
  | none => rfl
  | some n =>
      by_contra hne
      simp_all [countFindings]

/-- A body that is refused would be reported. -/
theorem fit_body_of_no_findings (h : c.findings = []) (hkind : c.kind? = some kind) :
    c.steps.fit kind .body = true := by
  have hcomplaints := no_complaints h hkind
  simp only [complaints, List.append_eq_nil_iff] at hcomplaints
  exact Steps.fit_of_no_refusal hcomplaints.1.2

/-- A second branch that is refused would be reported. -/
theorem fit_otherwise_of_no_findings (h : c.findings = []) (hkind : c.kind? = some kind) :
    (c.second kind).fit kind .otherwise = true := by
  have hcomplaints := no_complaints h hkind
  simp only [complaints, List.append_eq_nil_iff] at hcomplaints
  exact Steps.fit_of_no_refusal hcomplaints.2

theorem event_normalAs {type : ControlType} (hguarded : kind = .when ∨ kind = .whenOtherwise) :
    (c.normalAs kind type).event = some ((c.event.map Event.normal).getD .blank) := by
  rcases hguarded with rfl | rfl <;> rfl

/-- When nothing is found about a control and its event has a block, it is saved with every leaf
that has a place. -/
theorem exists_normal (h : c.findings = []) (hkind : c.kind? = some kind)
    (hevent : kind = .when ∨ kind = .whenOtherwise → ∃ e, c.event = some e ∧ e.tree?.isSome) :
    ∃ saved, c.normal? = some saved ∧ ∀ leaf, c.Holds leaf → saved.leaf? leaf = c.leaf? leaf := by
  obtain ⟨type, htype, hlogic⟩ := Option.bind_eq_some_iff.mp hkind
  have hself : Graph.controlType? kind = some type := (type_of_kind? hkind).symm.trans htype
  have hguarded : c.Guarded → kind = .when ∨ kind = .whenOtherwise := by
    rw [Guarded, htype]
    rintro (heq | heq) <;> obtain rfl := Option.some.inj heq
    · exact .inl (Option.some.inj hlogic).symm
    · exact .inr (Option.some.inj hlogic).symm
  refine ⟨c.normalAs kind type, by rw [normal?, hkind, Option.bind_some, hself]; rfl, ?_⟩
  intro leaf hleaf
  cases leaf with
  | type => exact congrArg (Option.map LeafValue.controlType) htype.symm
  | times =>
      obtain rfl := Option.some.inj (htype.symm.trans hleaf)
      obtain rfl := Option.some.inj hlogic
      exact congrArg (Option.map LeafValue.int) (clamp_of_no_findings h hkind)
  | eventType =>
      obtain ⟨e, he, hknown⟩ := hevent (hguarded hleaf)
      simp [leaf?, event_normalAs (hguarded hleaf), he, Event.type_normal hknown]
  | target leaf =>
      obtain ⟨e, he, -⟩ := hevent (hguarded hleaf.1)
      have hfind : e.type = some .findObject := by simpa [he] using hleaf.2
      simp [leaf?, event_normalAs (hguarded hleaf.1), he, Event.target_normal hfind]
  | step step leaf => simp [leaf?, normalAs, kept_of_fit (fit_body_of_no_findings h hkind)]
  | otherwise step leaf =>
      obtain rfl := Option.some.inj (htype.symm.trans hleaf)
      obtain rfl := Option.some.inj hlogic
      have hfit : (c.otherwise.getD .empty).fit .whenOtherwise .otherwise = true :=
        fit_otherwise_of_no_findings h hkind
      simp [leaf?, normalAs, kept_of_fit hfit, Steps.leaf?_getD]

theorem loose_of_no_findings (h : c.findings = []) : c.loose = [] := by
  cases hkind : c.kind? with
  | some => exact loose_of_kind hkind
  | none =>
      have hskipped := isSkipped_of_no_findings h hkind
      rw [isSkipped, Bool.and_eq_true, Option.isNone_iff_eq_none] at hskipped
      rw [loose, hkind]
      exact if_pos hskipped

end Control

/-! ## Programs -/

section Silent

variable {layout : Layout} {p : Program} {c : Control} {kind : BlockKind}
  (hsilent : (Graph.ofProgram .standard layout p).validate none = [])

include hsilent

/-- A loaded diagram about which nothing is found is clean. -/
theorem clean_of_silent : (Graph.ofProgram .standard layout p).Clean :=
  have h := Graph.edited_ofProgram layout p
  ⟨h.forest, h.grammar, h.fields, hsilent⟩

theorem findings_of_silent : ∀ c ∈ p.controls, c.findings = [] := by
  rw [Graph.validate_eq, List.append_eq_nil_iff] at hsilent
  exact (Graph.pinned_ofProgram_eq_nil_iff layout p).mp hsilent.1

/-- Steps at the top level that do not begin with a pick would be reported. -/
theorem beginWithPick_of_silent : p.steps.BeginWithPick := by
  intro hany
  obtain ⟨first, hfirst⟩ := Steps.exists_first? hany
  obtain ⟨root, hroot, hkind⟩ := Graph.exists_root_of_first layout hfirst
  have hclean := clean_of_silent hsilent
  obtain ⟨-, hroots, -⟩ := Graph.of_no_orphans (fun _ => hclean.live_root) hclean.no_orphans
  obtain ⟨kind, hself, hcounts⟩ := hroots root hroot
  obtain rfl := Option.some.inj (hkind.symm.trans hself)
  rw [hclean.grammar, isRoot_first? hfirst] at hcounts
  exact hcounts

/-- A guard that is missing would be reported. -/
theorem guard_of_silent (hc : c ∈ p.controls) (hkind : c.kind? = some kind)
    (hguarded : kind = .when ∨ kind = .whenOtherwise) :
    ∃ e, c.event = some e ∧ e.tree?.isSome := by
  have hspec : (⟨.when, Grammar.eventKinds, true⟩ : SocketSpec) ∈
      (Grammar.standardSpec kind).sockets := by
    rcases hguarded with rfl | rfl <;> decide
  obtain ⟨id, hlink⟩ := Graph.exists_link_of_control layout hc hkind
  obtain ⟨child, -, hchild, -⟩ := (clean_of_silent hsilent).required hlink.kind hspec rfl
  have hevent := hlink.child? .when (by decide)
  rw [hchild, child?_tree] at hevent
  obtain ⟨t, ht, -⟩ := Graph.exists_of_rel_right hevent
  obtain ⟨e, he, htree⟩ := Option.bind_eq_some_iff.mp ht
  rw [Control.guard?, if_pos hguarded] at he
  exact ⟨e, he, by rw [htree]; rfl⟩

end Silent

/-- When nothing is found about a loaded diagram, every set leaf that has a place in its block is
saved with its value, under the path it has without the controls in which nothing is set. -/
theorem silent_loading_keeps_leaves (layout : Layout) (p : Program)
    (hsilent : (Graph.ofProgram .standard layout p).validate none = []) :
    ∀ path value, p.leaf? path = some value → p.Holds path →
      (Graph.ofProgram .standard layout p).toProgram.leaf? (p.shift path) = some value := by
  have hfindings := findings_of_silent hsilent
  have hnormal : ∀ c ∈ p.controls, c.isSkipped = false → ∃ saved, c.normal? = some saved ∧
      ∀ leaf, c.Holds leaf → saved.leaf? leaf = c.leaf? leaf := by
    intro c hc hset
    cases hkind : c.kind? with
    | none => rw [Control.isSkipped_of_no_findings (hfindings c hc) hkind] at hset; cases hset
    | some kind =>
        exact Control.exists_normal (hfindings c hc) hkind (guard_of_silent hsilent hc hkind)
  -- So a control is saved unless it is skipped, and `shift` counts those that are not.
  have hkept : ∀ c ∈ p.controls, c.normal?.isSome = !c.isSkipped := by
    intro c hc
    cases hskipped : c.isSkipped with
    | true => simp [Control.normal?, Control.kind?_of_isSkipped hskipped]
    | false =>
        obtain ⟨saved, hsaved, -⟩ := hnormal c hc hskipped
        simp [hsaved]
  rw [toProgram_ofProgram_eq_normal, Program.normal_eq_of_no_loose (beginWithPick_of_silent hsilent)
    fun c hc => Control.loose_of_no_findings (hfindings c hc)]
  intro path value hvalue hplace
  cases path with
  | step kind leaf => exact hvalue
  | control index leaf =>
      obtain ⟨c, hc, hleaf⟩ := Option.bind_eq_some_iff.mp hvalue
      have hmem := List.mem_of_getElem? hc
      have hset : c.isSkipped = false := by
        rw [← Bool.not_eq_true, Control.isSkipped_iff_leaf?]
        intro hnone
        rw [hnone leaf] at hleaf
        cases hleaf
      obtain ⟨saved, hsaved, hleaves⟩ := hnormal c hmem hset
      have hfound := getElem?_filterMap_countP hkept hc (by rw [hset]; rfl)
      simp only [Program.shift, Program.leaf?, hfound, hsaved, Option.bind_some]
      rw [hleaves leaf (hplace c hc), hleaf]

/-- A loop with a count, behind a control in which nothing is set. -/
def loopBehindBlank : Program :=
  ⟨.empty, [.empty, ⟨some .loop, some 3, none, none,
    ⟨some ⟨some "A", some 1⟩, none, some ⟨some "B", some 2⟩⟩⟩]⟩

/-- The loop is the only control that is saved, with its steps. -/
theorem leaf_behind_blank_control :
    let saved := (Graph.ofProgram .standard .standard loopBehindBlank).toProgram
    let location : LeafPath := .control 1 (.step .place .id)
    (Graph.ofProgram .standard .standard loopBehindBlank).validate none = [] ∧
      loopBehindBlank.leaf? location = some (.int 2) ∧ loopBehindBlank.Holds location ∧
      loopBehindBlank.shift location = .control 0 (.step .place .id) ∧
      saved.leaf? (.control 0 (.step .place .id)) = some (.int 2) := by
  intro saved location
  have hsilent : (Graph.ofProgram .standard .standard loopBehindBlank).validate none = [] := by
    decide +kernel
  have hvalue : loopBehindBlank.leaf? location = some (.int 2) := by decide
  have hplace : loopBehindBlank.Holds location := fun _ _ => trivial
  have hshift : loopBehindBlank.shift location = .control 0 (.step .place .id) := by decide
  have hsaved :=
    silent_loading_keeps_leaves .standard loopBehindBlank hsilent location _ hvalue hplace
  exact ⟨hsilent, hvalue, hplace, hshift, hshift ▸ hsaved⟩

/-- Nothing is found, and still the type of the loop is saved under another path, and its count,
which its block has no place for, is not saved at all. -/
theorem silent_loading_moves_and_drops_leaves :
    let loaded := Graph.ofProgram .standard .standard loopBehindBlank
    loaded.validate none = [] ∧
      loopBehindBlank.leaf? (.control 1 .type) = some (.controlType .loop) ∧
      loaded.toProgram.leaf? (.control 1 .type) = none ∧
      loopBehindBlank.leaf? (.control 1 .times) = some (.int 3) ∧
      loaded.toProgram.leaf? (.control 0 .times) = none := by
  decide +kernel

end TaskDiagram
