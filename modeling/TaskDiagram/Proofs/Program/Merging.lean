import TaskDiagram.Program.Merge
import TaskDiagram.Proofs.Program.Leaves

/-! # Merging drafts

A program is determined by what its leaves are set to and by which of its records are there. At
every path merging takes the later leaf unless it is unset, and keeps every record of either side.
The laws of merging whole programs are therefore those of single leaves and single records.
-/

namespace TaskDiagram

/-! ## Records -/

/-- The records in a control. -/
inductive ControlRecord where
  | event
  | target
  | step (kind : StepKind)
  | otherwise
  | otherwiseStep (kind : StepKind)
  deriving DecidableEq, Repr

/-- The records of a program: its steps, its controls, and the records in these. -/
inductive RecordPath where
  | step (kind : StepKind)
  | control (index : Nat)
  | inControl (index : Nat) (record : ControlRecord)
  deriving DecidableEq, Repr

def Control.hasRecord (c : Control) : ControlRecord → Bool
  | .event => c.event.isSome
  | .target => (c.event.bind (·.findObject)).isSome
  | .step kind => (c.steps.get kind).isSome
  | .otherwise => c.otherwise.isSome
  | .otherwiseStep kind => (c.otherwise.bind (·.get kind)).isSome

def Program.hasRecord (p : Program) : RecordPath → Bool
  | .step kind => (p.steps.get kind).isSome
  | .control index => p.controls[index]?.isSome
  | .inControl index record => p.controls[index]?.any (·.hasRecord record)

/-! ## Leaves and records determine a program -/

/-- Records of which both or neither are there are the same if they are the same when there. -/
theorem eq_of_isSome_eq {α : Type} {a b : Option α} (hsome : a.isSome = b.isSome)
    (h : ∀ x ∈ a, ∀ y ∈ b, x = y) : a = b := by
  cases a with
  | none => exact (Option.not_isSome_iff_eq_none.mp (by simp [← hsome])).symm
  | some x =>
      obtain ⟨y, hy⟩ := Option.isSome_iff_exists.mp hsome.symm
      rw [hy, h x rfl y hy]

theorem Reference.ext_optional {a b : Option Reference} (hsome : a.isSome = b.isSome)
    (h : ∀ leaf, a.bind (·.leaf? leaf) = b.bind (·.leaf? leaf)) : a = b := by
  refine eq_of_isSome_eq hsome fun r hr s hs => Reference.ext_leaf? fun leaf => ?_
  have hleaf := h leaf
  rwa [hr, hs] at hleaf

/-- Controls with the same records and the same leaves are the same. -/
@[ext (iff := false)]
theorem Control.ext_paths {c d : Control}
    (hrecords : ∀ record, c.hasRecord record = d.hasRecord record)
    (hleaves : ∀ leaf, c.leaf? leaf = d.leaf? leaf) : c = d := by
  have htype : c.type = d.type := type_congr hleaves
  have htimes : c.times = d.times := times_congr hleaves
  have hevent : c.event = d.event := by
    have heventType : c.event.bind (·.type) = d.event.bind (·.type) := eventType_congr hleaves
    have htarget : c.event.bind (·.findObject) = d.event.bind (·.findObject) :=
      Reference.ext_optional (hrecords .target) fun leaf => hleaves (.target leaf)
    refine eq_of_isSome_eq (hrecords .event) fun e he e' he' => ?_
    rw [he, he'] at heventType htarget
    cases e
    cases e'
    rw [Event.mk.injEq]
    exact ⟨heventType, htarget⟩
  have hotherwise : c.otherwise = d.otherwise := by
    refine eq_of_isSome_eq (hrecords .otherwise) fun s hs t ht => Steps.ext_get fun kind => ?_
    have hget : c.otherwise.bind (·.get kind) = d.otherwise.bind (·.get kind) := by
      refine Reference.ext_optional (hrecords (.otherwiseStep kind)) fun leaf => ?_
      rw [Option.bind_assoc, Option.bind_assoc]
      exact hleaves (.otherwise kind leaf)
    rwa [hs, ht] at hget
  have hsteps : c.steps = d.steps := Steps.ext_get fun kind =>
    Reference.ext_optional (hrecords (.step kind)) fun leaf => hleaves (.step kind leaf)
  cases c
  cases d
  simp_all only

/-- Programs with the same records and the same leaves are the same. -/
@[ext (iff := false)]
theorem Program.ext_paths {p q : Program} (hrecords : ∀ path, p.hasRecord path = q.hasRecord path)
    (hleaves : ∀ path, p.leaf? path = q.leaf? path) : p = q := by
  have hsteps : p.steps = q.steps := Steps.ext_get fun kind =>
    Reference.ext_optional (hrecords (.step kind)) fun leaf => hleaves (.step kind leaf)
  have hcontrols : p.controls = q.controls := by
    refine List.ext_getElem? fun index => ?_
    refine eq_of_isSome_eq (hrecords (.control index)) fun c hc d hd => ?_
    refine Control.ext_paths (fun record => ?_) fun leaf => ?_
    · have hrecord := hrecords (.inControl index record)
      rwa [hasRecord, hasRecord, hc, hd] at hrecord
    · have hleaf := hleaves (.control index leaf)
      rwa [leaf?, leaf?, hc, hd] at hleaf
  cases p
  cases q
  rw [mk.injEq]
  exact ⟨hsteps, hcontrols⟩

/-! ## Merging at a path -/

section Merging

variable {α β : Type} {merge : α → α → α}

theorem isSome_mergeRecord (earlier later : Option α) :
    (mergeRecord merge earlier later).isSome = (earlier.isSome || later.isSome) := by
  cases earlier <;> cases later <;> rfl

/-- What is merged within records is merged when one of the records is missing as well. -/
theorem bind_mergeRecord {inner : β → β → β} {f : α → Option β}
    (h : ∀ x y, f (merge x y) = mergeRecord inner (f x) (f y)) (earlier later : Option α) :
    (mergeRecord merge earlier later).bind f =
      mergeRecord inner (earlier.bind f) (later.bind f) := by
  cases earlier with
  | none => cases later <;> simp [mergeRecord]
  | some x =>
      cases later with
      | none => cases hx : f x <;> simp [mergeRecord, hx]
      | some y => exact h x y

theorem any_mergeRecord {f : α → Bool} (h : ∀ x y, f (merge x y) = (f x || f y))
    (earlier later : Option α) :
    (mergeRecord merge earlier later).any f = (earlier.any f || later.any f) := by
  cases earlier <;> cases later <;> simp [mergeRecord, h]

/-- A leaf within records is the later one, unless it is unset or its record missing. -/
theorem leaf_mergeRecord {f : α → Option β} (h : ∀ x y, f (merge x y) = (f y).or (f x))
    (earlier later : Option α) :
    (mergeRecord merge earlier later).bind f = (later.bind f).or (earlier.bind f) := by
  cases earlier <;> cases later <;> simp [mergeRecord, h]

end Merging

/-- A leaf of a merged reference is the later one, unless it is unset. -/
theorem Reference.leaf?_merge (r s : Reference) (leaf : ReferenceLeaf) :
    (r.merge s).leaf? leaf = (s.leaf? leaf).or (r.leaf? leaf) := by
  cases leaf <;> exact Option.map_or

theorem Steps.get_merge (s t : Steps) (kind : StepKind) :
    (s.merge t).get kind = mergeRecord Reference.merge (s.get kind) (t.get kind) := by
  cases kind <;> rfl

/-- A leaf of merged steps is the later one, unless it is unset. -/
theorem Steps.leaf?_merge (s t : Steps) (kind : StepKind) (leaf : ReferenceLeaf) :
    (s.merge t).leaf? kind leaf = (t.leaf? kind leaf).or (s.leaf? kind leaf) := by
  rw [leaf?, get_merge]
  exact leaf_mergeRecord (fun r r' => r.leaf?_merge r' leaf) _ _

namespace Control

variable (c d : Control)

theorem target_merge : (c.merge d).event.bind (·.findObject) =
    mergeRecord Reference.merge (c.event.bind (·.findObject)) (d.event.bind (·.findObject)) :=
  bind_mergeRecord (fun _ _ => rfl) c.event d.event

theorem otherwiseStep_merge (kind : StepKind) : (c.merge d).otherwise.bind (·.get kind) =
    mergeRecord Reference.merge (c.otherwise.bind (·.get kind)) (d.otherwise.bind (·.get kind)) :=
  bind_mergeRecord (fun s t => s.get_merge t kind) c.otherwise d.otherwise

/-- A leaf of a merged control is the later one, unless it is unset. -/
theorem leaf?_merge (leaf : ControlLeaf) :
    (c.merge d).leaf? leaf = (d.leaf? leaf).or (c.leaf? leaf) := by
  cases leaf with
  | type => exact Option.map_or
  | times => exact Option.map_or
  | eventType =>
      have htype : (c.merge d).event.bind (·.type) =
          (d.event.bind (·.type)).or (c.event.bind (·.type)) :=
        leaf_mergeRecord (fun _ _ => rfl) c.event d.event
      rw [leaf?, htype]
      exact Option.map_or
  | target leaf =>
      rw [leaf?, target_merge]
      exact leaf_mergeRecord (fun r r' => r.leaf?_merge r' leaf) _ _
  | step kind leaf => exact c.steps.leaf?_merge d.steps kind leaf
  | otherwise kind leaf => exact leaf_mergeRecord (fun s t => s.leaf?_merge t kind leaf) _ _

/-- A record of a merged control is there when either control has it. -/
theorem hasRecord_merge (record : ControlRecord) :
    (c.merge d).hasRecord record = (c.hasRecord record || d.hasRecord record) := by
  cases record with
  | event => exact isSome_mergeRecord _ _
  | target =>
      rw [hasRecord, target_merge]
      exact isSome_mergeRecord _ _
  | step kind =>
      rw [hasRecord, merge, Steps.get_merge]
      exact isSome_mergeRecord _ _
  | otherwise => exact isSome_mergeRecord _ _
  | otherwiseStep kind =>
      rw [hasRecord, otherwiseStep_merge]
      exact isSome_mergeRecord _ _

end Control

/-- Chains are merged position by position. -/
theorem Control.getElem?_mergeChain (cs ds : List Control) (index : Nat) :
    (mergeChain cs ds)[index]? = mergeRecord merge cs[index]? ds[index]? := by
  induction cs generalizing ds index with
  | nil => simp [mergeChain, mergeRecord]
  | cons c cs ih =>
      cases ds with
      | nil => cases hc : (c :: cs)[index]? <;> simp [mergeChain, mergeRecord, hc]
      | cons d ds =>
          cases index with
          | zero => rfl
          | succ index => exact ih ds index

/-- A merged chain is as long as the longer one. -/
theorem Control.length_mergeChain (cs ds : List Control) :
    (mergeChain cs ds).length = max cs.length ds.length := by
  induction cs generalizing ds with
  | nil => simp [mergeChain]
  | cons c cs ih =>
      cases ds with
      | nil => simp [mergeChain]
      | cons d ds => simp [mergeChain, ih]

namespace Program

/-- A leaf of a merged program is the later one, unless it is unset. -/
theorem leaf?_merge (p q : Program) (path : LeafPath) :
    (p.merge q).leaf? path = (q.leaf? path).or (p.leaf? path) := by
  cases path with
  | step kind leaf => exact p.steps.leaf?_merge q.steps kind leaf
  | control index leaf =>
      rw [leaf?, merge, Control.getElem?_mergeChain]
      exact leaf_mergeRecord (fun c d => c.leaf?_merge d leaf) _ _

/-- A record of a merged program is there when either program has it. -/
theorem hasRecord_merge (p q : Program) (path : RecordPath) :
    (p.merge q).hasRecord path = (p.hasRecord path || q.hasRecord path) := by
  cases path with
  | step kind =>
      rw [hasRecord, merge, Steps.get_merge]
      exact isSome_mergeRecord _ _
  | control index =>
      rw [hasRecord, merge, Control.getElem?_mergeChain]
      exact isSome_mergeRecord _ _
  | inControl index record =>
      rw [hasRecord, merge, Control.getElem?_mergeChain]
      exact any_mergeRecord (fun c d => c.hasRecord_merge d record) _ _

/-- At every path a merged program has the later leaf where it is set and the earlier one where
it is not, and the records of both; its chain of controls is as long as the longer one. -/
theorem merge_path_by_path (earlier later : Program) :
    (∀ path, (earlier.merge later).leaf? path =
        if (later.leaf? path).isSome then later.leaf? path else earlier.leaf? path) ∧
      (∀ path, (earlier.merge later).hasRecord path ↔
        earlier.hasRecord path ∨ later.hasRecord path) ∧
      (earlier.merge later).controls.length =
        max earlier.controls.length later.controls.length := by
  refine ⟨fun path => ?_, fun path => ?_, Control.length_mergeChain _ _⟩
  · rw [leaf?_merge]
    cases later.leaf? path <;> rfl
  · rw [hasRecord_merge, Bool.or_eq_true]

/-! ## Laws of merging -/

theorem leaf?_empty (path : LeafPath) : empty.leaf? path = none := by
  cases path with
  | step kind leaf => cases kind <;> rfl
  | control => rfl

theorem hasRecord_empty (path : RecordPath) : empty.hasRecord path = false := by
  cases path with
  | step kind => cases kind <;> rfl
  | _ => rfl

section Laws

variable (a b c : Program)

/-- It makes no difference which two of three programs are merged first. -/
theorem merge_assoc : (a.merge b).merge c = a.merge (b.merge c) := by
  ext path : 1
  · simp only [hasRecord_merge, Bool.or_assoc]
  · simp only [leaf?_merge, Option.or_assoc]

instance : Std.Associative merge := ⟨merge_assoc⟩

/-- Merging into an empty program gives the program that is merged. -/
theorem empty_merge : empty.merge a = a := by
  ext path : 1
  · rw [hasRecord_merge, hasRecord_empty, Bool.false_or]
  · rw [leaf?_merge, leaf?_empty, Option.or_none]

/-- Merging an empty program changes nothing. -/
theorem merge_empty : a.merge empty = a := by
  ext path : 1
  · rw [hasRecord_merge, hasRecord_empty, Bool.or_false]
  · rw [leaf?_merge, leaf?_empty, Option.none_or]

/-- Merging a program into itself changes nothing. -/
theorem merge_self : a.merge a = a := by
  ext path : 1
  · rw [hasRecord_merge, Bool.or_self]
  · rw [leaf?_merge, Option.or_self]

/-- What is merged again only becomes the latest. -/
theorem merge_merge_self : (a.merge b).merge a = b.merge a := by
  ext path : 1
  · simp only [hasRecord_merge]
    cases a.hasRecord path <;> simp
  · simp only [leaf?_merge]
    cases a.leaf? path <;> simp

end Laws

/-! ## Folding drafts -/

/-- Drafts may be folded on their own before they are merged into a program. -/
theorem foldl_merge (p : Program) (drafts : List Program) :
    drafts.foldl merge p = p.merge (drafts.foldl merge empty) :=
  calc drafts.foldl merge p = drafts.foldl merge (p.merge empty) := by rw [merge_empty]
    _ = p.merge (drafts.foldl merge empty) := List.foldl_assoc

/-- A grouping of drafts in pairs, pairs of pairs and so on. -/
inductive Grouping where
  | draft (p : Program)
  | pair (earlier later : Grouping)

namespace Grouping

/-- The drafts that are grouped, in order. -/
def drafts : Grouping → List Program
  | draft p => [p]
  | pair earlier later => earlier.drafts ++ later.drafts

/-- The drafts folded pair by pair. -/
def merged : Grouping → Program
  | draft p => p
  | pair earlier later => earlier.merged.merge later.merged

end Grouping

/-- However drafts are grouped, the result is that of folding them one after the other. -/
theorem merge_merged (p : Program) (grouping : Grouping) :
    p.merge grouping.merged = grouping.drafts.foldl merge p := by
  induction grouping generalizing p with
  | draft q => rfl
  | pair earlier later ihEarlier ihLater =>
      rw [Grouping.merged, ← merge_assoc, ihLater, ihEarlier, Grouping.drafts, List.foldl_append]

/-- A draft that comes again makes its first coming void. -/
theorem foldl_merge_replayed (p draft : Program) (before after : List Program) :
    (before ++ draft :: after ++ [draft]).foldl merge p =
      (before ++ after ++ [draft]).foldl merge p := by
  have hfold : ∀ earlier : Program, after.foldl merge earlier =
      earlier.merge (after.foldl merge empty) := fun earlier => foldl_merge earlier after
  simp only [List.foldl_append, List.foldl_cons, List.foldl_nil]
  generalize before.foldl merge p = earlier
  rw [hfold, hfold earlier]
  calc ((earlier.merge draft).merge (after.foldl merge empty)).merge draft
      = earlier.merge ((draft.merge (after.foldl merge empty)).merge draft) := by
        rw [merge_assoc, merge_assoc, merge_assoc]
    _ = (earlier.merge (after.foldl merge empty)).merge draft := by
        rw [merge_merge_self, merge_assoc]

/-- Programs are an idempotent monoid under merging, and what is merged again only becomes the
latest. So drafts may be folded in any grouping, and a draft that comes again makes its first
coming void. -/
theorem merging_is_idempotent_monoid :
    (∀ a b c : Program, (a.merge b).merge c = a.merge (b.merge c)) ∧
      (∀ a : Program, empty.merge a = a ∧ a.merge empty = a) ∧
      (∀ a : Program, a.merge a = a) ∧
      (∀ a b : Program, (a.merge b).merge a = b.merge a) ∧
      (∀ (p : Program) (grouping : Grouping),
        p.merge grouping.merged = grouping.drafts.foldl merge p) ∧
      ∀ (p draft : Program) (before after : List Program),
        (before ++ draft :: after ++ [draft]).foldl merge p =
          (before ++ after ++ [draft]).foldl merge p :=
  ⟨merge_assoc, fun a => ⟨empty_merge a, merge_empty a⟩, merge_self, merge_merge_self,
    merge_merged, foldl_merge_replayed⟩

end Program

end TaskDiagram
