import TaskDiagram.Program.Draft
import TaskDiagram.Proofs.Graph.Loading.Pieces
import TaskDiagram.Proofs.Graph.Roles

/-! # The parts of a loaded program

Whatever the grammar refuses, loading builds each part of a program once: a block for every step
that is there, for every reference in which something is set, for every control of known type and
for every known event that a control can hold, and no other block.
-/

namespace TaskDiagram

/-- The steps that are there, each with what is set of its reference. -/
def Steps.present (s : Steps) : List (StepKind × Option Reference) :=
  s.toList.map fun (kind, r) => (kind, Reference.compact r)

/-- The event, if its type is known, with what is set of the object it searches. -/
def Event.known? (e : Event) : Option (EventType × Option Reference) :=
  (e.type.filter EventType.isKnown).map fun type =>
    (type, if type = .findObject then Reference.compact e.findObject else none)

namespace Control

/-- The steps of a control that are there; those of a control in which nothing is set do not
count, nor a second branch that the control cannot have. -/
def present (c : Control) : List (StepKind × Option Reference) :=
  (if c.type = none ∧ c.isUnset then [] else c.steps.present) ++
    if c.type = some .whenOtherwise then (c.otherwise.getD .empty).present else []

/-- The known event of a conditional control. -/
def knownEvent? (c : Control) : Option (EventType × Option Reference) :=
  if c.type = some .when ∨ c.type = some .whenOtherwise then c.event.bind Event.known? else none

end Control

namespace Program

variable (p : Program)

def presentSteps : List (StepKind × Option Reference) :=
  p.steps.present ++ p.controls.flatMap Control.present

def knownEvents : List (EventType × Option Reference) := p.controls.filterMap Control.knownEvent?

def knownControls : List ControlType :=
  p.controls.filterMap fun c => c.type.filter ControlType.isKnown

/-- The references of the steps and events in which something is set. -/
def setReferences : List (LibraryKind × Reference) :=
  (p.presentSteps.flatMap fun (kind, target) => (target.map (kind.entity, ·)).toList) ++
    p.knownEvents.flatMap fun (_, target) => (target.map (LibraryKind.object, ·)).toList

end Program

/-! ## Parts of pieces -/

/-- The block of a reference, if something is set in it. -/
def Reference.itemRoles (kind : LibraryKind) (target : Option Reference) : List Role :=
  (target.map fun r => .item kind r.fields).toList

/-- The block of a step and that of its reference. -/
def StepKind.roles : StepKind × Option Reference → List Role
  | (kind, target) => .step kind target :: Reference.itemRoles kind.entity target

/-- The block of an event and that of the object it searches. -/
def EventType.roles : EventType × Option Reference → List Role
  | (type, target) => .event type target :: Reference.itemRoles .object target

/-- A reference is one block if something is set in it. -/
theorem Reference.roles_tree? (r : Reference) (kind : LibraryKind) :
    (r.tree? kind).toList.flatMap Tree.roles = itemRoles kind (compact r) := by
  unfold tree?
  cases hblank : r.isBlank with
  | true => simp [itemRoles, compact, Option.filter, hblank]
  | false =>
      have hitem : (Tree.node (.ofEntity kind) r.fields []).roles = [.item kind r.fields] := by
        cases kind <;> rfl
      simp [itemRoles, compact, Option.filter, hblank, hitem]

namespace Tree

/-- A block with a reference in its socket holds it, unless it is blank. -/
theorem held?_holding (kind : BlockKind) (entity : LibraryKind) (r : Reference) :
    (holding kind entity r).held? entity = Reference.compact r := by
  rw [held?, readReference_holding, holding, child?_plug _ rfl, if_pos rfl, Reference.tree?]
  cases hblank : r.isBlank <;> simp [Reference.compact, Option.filter, hblank]

theorem roles_holding (kind : BlockKind) (entity : LibraryKind) (r : Reference) :
    (holding kind entity r).roles =
      (holding kind entity r).role :: Reference.itemRoles entity (Reference.compact r) := by
  have hinside : rolesOf (holding kind entity r).inputs = (r.tree? entity).toList.flatMap roles := by
    rw [holding, inputs_plug, inputs, List.nil_append, rolesOf_inSocket]
  rw [roles_eq, hinside, r.roles_tree?]

theorem roles_ofStep (kind : StepKind) (r : Reference) :
    (ofStep kind r).roles = StepKind.roles (kind, Reference.compact r) := by
  have hheld := held?_holding (.ofStep kind) kind.entity r
  have hrole : (ofStep kind r).role = .step kind (Reference.compact r) := by
    rw [← hheld]
    cases kind <;> rfl
  rw [ofStep, roles_holding, ← ofStep, hrole, StepKind.roles]

end Tree

theorem Steps.roles_trees (s : Steps) : s.trees.flatMap Tree.roles = s.present.flatMap StepKind.roles := by
  rw [trees, present, List.flatMap_map, List.flatMap_map]
  exact List.flatMap_congr fun step _ => Tree.roles_ofStep step.1 step.2

theorem Steps.roles_tree? (s : Steps) :
    s.tree?.toList.flatMap Tree.roles = s.present.flatMap StepKind.roles := by
  rw [tree?, Tree.roles_nest, roles_trees]

/-- Steps keep their blocks whether the socket accepts them or not. -/
theorem Steps.roles_placed (s : Steps) (owner : BlockKind) (socket : SocketName) :
    ((s.plugged owner socket).toList ++ s.detached owner socket).flatMap Tree.roles =
      s.present.flatMap StepKind.roles := by
  rw [← roles_tree?, plugged, detached]
  split <;> simp

/-- An event is a block when its type is known. -/
theorem Event.roles_tree? (e : Event) :
    e.tree?.toList.flatMap Tree.roles = e.known?.toList.flatMap EventType.roles := by
  obtain ⟨type, target⟩ := e
  cases type with
  | none => rfl
  | some type =>
      cases type with
      | sensor => rfl
      | human => rfl
      | other => rfl
      | findObject =>
          have hheld := Tree.held?_holding .findObject .object (target.getD .blank)
          have htarget : Reference.compact (target.getD .blank) = Reference.compact target := by
            cases target <;> rfl
          have hrole : (Tree.holding .findObject .object (target.getD .blank)).role =
              .event .findObject (Reference.compact target) := by
            rw [← htarget, ← hheld]
            rfl
          have hknown : (Event.mk (some .findObject) target).known? =
              some (.findObject, Reference.compact target) := rfl
          rw [hknown, tree?]
          simp [Tree.roles_holding, EventType.roles, hrole, htarget]

namespace Control

variable {c : Control} {kind : BlockKind} {type : ControlType}

/-- The blocks of a control: its own, those of its event and those of its steps. -/
def roles (c : Control) : List Role :=
  (c.type.filter ControlType.isKnown).toList.map .control ++
    c.knownEvent?.toList.flatMap EventType.roles ++ c.present.flatMap StepKind.roles

/-- A logic block holds the event of its control exactly when it can be guarded. -/
theorem roles_guard? (htype : c.type = some type) (hkind : Build.logicKind? type = some kind) :
    ((c.guard? kind).bind Event.tree?).toList.flatMap Tree.roles =
      c.knownEvent?.toList.flatMap EventType.roles := by
  have hguard : c.knownEvent? = (c.guard? kind).bind Event.known? := by
    unfold knownEvent? guard?
    rw [htype]
    cases type <;> cases hkind <;> simp
  rw [hguard]
  cases c.guard? kind with
  | none => rfl
  | some e => exact e.roles_tree?

theorem present_of_kind (htype : c.type = some type) (hkind : Build.logicKind? type = some kind) :
    c.present = c.steps.present ++ (c.second kind).present := by
  unfold present second
  rw [htype, if_neg (by simp)]
  cases type <;> cases hkind <;> rfl

/-- A control without a logic block has no type or one that is not known. -/
theorem type_of_no_kind (hkind : c.kind? = none) :
    c.type = none ∨ ∃ text, c.type = some (.other text) := by
  unfold kind? at hkind
  cases htype : c.type with
  | none => exact .inl rfl
  | some type =>
      rw [htype] at hkind
      cases type with
      | other text => exact .inr ⟨text, rfl⟩
      | _ => cases hkind

/-- Of a control without a logic block only the steps are loaded. -/
theorem roles_of_no_kind (hkind : c.kind? = none) : c.strays.flatMap Tree.roles = c.roles := by
  have hpresent : c.roles = c.present.flatMap StepKind.roles := by
    rcases type_of_no_kind hkind with htype | ⟨text, htype⟩ <;>
      simp [roles, knownEvent?, htype, ControlType.isKnown, Option.filter]
  have hlast : c.type ≠ some .whenOtherwise := by
    rcases type_of_no_kind hkind with htype | ⟨text, htype⟩ <;> simp [htype]
  rw [hpresent, present, if_neg hlast, List.append_nil, strays, hkind]
  dsimp only
  split
  · rfl
  · exact c.steps.roles_tree?

/-- A logic block keeps the steps its sockets accept, and the others stand beside it. -/
theorem roles_of_kind (hkind : c.kind? = some kind) :
    ((c.tree kind).roles ++ c.strays.flatMap Tree.roles).Perm c.roles := by
  obtain ⟨type, htype, hlogic⟩ := Option.bind_eq_some_iff.mp hkind
  have hcontrol : c.type.filter ControlType.isKnown = some type := by
    rw [htype]
    cases type <;> cases hlogic <;> rfl
  have hblock : (Tree.node kind (c.fields kind) []).roles = [.control type] := by
    cases type <;> cases hlogic <;> rfl
  have hbody := c.steps.roles_placed kind .body
  have hsecond := (c.second kind).roles_placed kind .otherwise
  have hstrays : c.strays = c.refused kind := by rw [strays, hkind]
  rw [List.flatMap_append] at hbody hsecond
  rw [roles, hcontrol, ← roles_guard? htype hlogic, present_of_kind htype hlogic,
    List.flatMap_append, ← hbody, ← hsecond, hstrays, refused, tree, Tree.roles_plug _ (by decide),
    Tree.roles_plug _ (by decide), Tree.roles_plug _ (by decide), hblock]
  simp only [List.flatMap_append, ← Multiset.coe_eq_coe, ← Multiset.coe_add, Option.toList_some,
    List.map_cons, List.map_nil]
  abel

/-- A control is loaded into the same blocks whatever its sockets refuse. -/
theorem roles_perm (c : Control) :
    ((c.kind?.map c.tree).toList.flatMap Tree.roles ++ c.strays.flatMap Tree.roles).Perm c.roles := by
  cases hkind : c.kind? with
  | none => exact .of_eq (roles_of_no_kind hkind)
  | some kind => simpa using roles_of_kind hkind

end Control

/-! ## Parts of programs -/

namespace Program

variable (p : Program)

/-- The blocks of a program, piece by piece. -/
def roles : List Role := p.steps.present.flatMap StepKind.roles ++ p.controls.flatMap Control.roles

theorem roles_chains : p.chains.flatMap Tree.roles =
    p.steps.present.flatMap StepKind.roles ++ (Control.trees p.controls).flatMap Tree.roles := by
  unfold chains
  split
  · rw [Tree.roles_nest, List.flatMap_append, Steps.roles_trees]
  · rw [List.flatMap_append, Steps.roles_tree?, Tree.roles_nest]

/-- The trees of a program hold its blocks, in another order. -/
theorem roles_trees : (p.trees.flatMap Tree.roles).Perm p.roles := by
  have hcontrols : ((Control.trees p.controls).flatMap Tree.roles ++
      (p.controls.flatMap Control.strays).flatMap Tree.roles).Perm
        (p.controls.flatMap Control.roles) := by
    have htrees : (Control.trees p.controls).flatMap Tree.roles =
        p.controls.flatMap fun c => (c.kind?.map c.tree).toList.flatMap Tree.roles := by
      rw [Control.trees, List.filterMap_eq_flatMap_toList, List.flatMap_assoc]
    rw [htrees, List.flatMap_assoc]
    exact (List.flatMap_append_perm _ _ _).trans (List.Perm.flatMap_left _ fun c _ => c.roles_perm)
  refine (p.trees_perm.flatMap_right _).trans ?_
  rw [List.flatMap_append, roles_chains, List.append_assoc]
  exact hcontrols.append_left _

theorem roles_controls : (p.controls.flatMap Control.roles).Perm
    (p.knownControls.map .control ++ p.knownEvents.flatMap EventType.roles ++
      (p.controls.flatMap Control.present).flatMap StepKind.roles) := by
  rw [knownControls, knownEvents, List.filterMap_eq_flatMap_toList,
    List.filterMap_eq_flatMap_toList, List.map_flatMap, List.flatMap_assoc, List.flatMap_assoc]
  refine .trans (List.flatMap_append_perm _ _ _).symm (.append_right _ ?_)
  exact (List.flatMap_append_perm _ _ _).symm

/-- The blocks of a program, sorted by what they stand for. -/
theorem roles_perm : p.roles.Perm
    (p.presentSteps.map (fun (kind, target) => .step kind target) ++
      p.knownControls.map .control ++
      p.knownEvents.map (fun (type, target) => .event type target) ++
      p.setReferences.map fun (kind, r) => .item kind r.fields) := by
  have hitems : p.setReferences.map (fun (kind, r) => Role.item kind r.fields) =
      p.presentSteps.flatMap (fun (kind, target) => Reference.itemRoles kind.entity target) ++
        p.knownEvents.flatMap fun (_, target) => Reference.itemRoles .object target := by
    rw [setReferences, List.map_append, List.map_flatMap, List.map_flatMap]
    congr 1
    · refine List.flatMap_congr fun (kind, target) _ => ?_
      cases target <;> rfl
    · refine List.flatMap_congr fun (type, target) _ => ?_
      cases target <;> rfl
  have hsteps : p.roles.Perm (p.presentSteps.flatMap StepKind.roles ++
      (p.knownControls.map .control ++ p.knownEvents.flatMap EventType.roles)) := by
    rw [roles, presentSteps, List.flatMap_append, List.append_assoc]
    exact (p.roles_controls.trans List.perm_append_comm).append_left _
  have hstep := List.map_append_flatMap_perm p.presentSteps
    (fun (kind, target) => Role.step kind target)
    (fun (kind, target) => Reference.itemRoles kind.entity target)
  have hevent := List.map_append_flatMap_perm p.knownEvents
    (fun (type, target) => Role.event type target)
    (fun (_, target) => Reference.itemRoles .object target)
  refine hsteps.trans ((hstep.symm.append (hevent.symm.append_left _)).trans ?_)
  rw [hitems]
  simp only [← Multiset.coe_eq_coe, ← Multiset.coe_add]
  abel

end Program

/-- Every step, every reference in which something is set, every known control and every known event
that a control can hold is one block of a loaded program, and there is no other block. -/
theorem Graph.every_part_is_one_block (layout : Layout) (p : Program) :
    (ofProgram .standard layout p).roles.Perm
      (p.presentSteps.map (fun (kind, target) => .step kind target) ++
        p.knownControls.map .control ++
        p.knownEvents.map (fun (type, target) => .event type target) ++
        p.setReferences.map fun (kind, r) => .item kind r.fields) := by
  have hroles := (isForest_ofProgram layout p).roles_perm
  rw [forest_ofProgram] at hroles
  exact (hroles.trans p.roles_trees).trans p.roles_perm

end TaskDiagram
