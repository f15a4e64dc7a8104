import TaskDiagram.Program.Draft
import TaskDiagram.Proofs.Graph.Loading.Counts
import TaskDiagram.Proofs.Graph.Loading.Program
import TaskDiagram.Proofs.Graph.Loading.Run
import TaskDiagram.Proofs.Program.References

/-! # The references of a loaded program, in order

Loading reads the references of a program in the order of the document, and each that is not blank
becomes one library block of the kind that its place refers to. So the library blocks of a loaded
diagram, by increasing id, stand for the references that were read, one for one.
-/

namespace TaskDiagram

/-! ## References that are read -/

/-- The places of one control: what its event searches, its steps, those of its second branch. -/
def ReferencePlace.inControl (index : Nat) : List ReferencePlace :=
  .target index :: (StepKind.all.map (.controlStep index) ++
    StepKind.all.map (.otherwiseStep index))

namespace Program

variable (p : Program)

/-- The places of a program in the order in which loading comes to them. -/
def places : List ReferencePlace :=
  StepKind.all.map .step ++ (List.range p.controls.length).flatMap ReferencePlace.inControl

/-- Whether loading reads the reference in a place: that of a second branch only under a two-way
condition, and what an event searches only where a condition waits for it to be found. -/
def reads : ReferencePlace → Bool
  | .step _ => true
  | .controlStep _ _ => true
  | .otherwiseStep index _ => p.controls[index]?.any fun c => c.type = some .whenOtherwise
  | .target index => p.controls[index]?.any fun c =>
      (c.type = some .when ∨ c.type = some .whenOtherwise) ∧
        c.event.bind (·.type) = some .findObject

/-- The reference that is loaded from a place: there is none where it is not read, and none where
nothing is set. -/
def loaded? (place : ReferencePlace) : Option Reference :=
  if p.reads place then Reference.compact (p.reference? place) else none

/-- The places of the references that are loaded, in their order. -/
def loadedPlaces : List ReferencePlace := p.places.filter fun place => (p.loaded? place).isSome

end Program

/-- What a library block shows of itself: the kind of thing it refers to, and its fields. -/
abbrev ItemEntry := LibraryKind × FieldMap

/-- What the block of a reference shows. -/
def Reference.entry (kind : LibraryKind) (r : Reference) : ItemEntry := (kind, r.fields)

/-! ## Library blocks of diagrams -/

/-- What a block shows, if it is a library block. -/
def Face.item? (f : Face) : Option ItemEntry := f.kind.entity?.map (·, f.fields)

namespace Graph

variable {g g' : Graph}

/-- The library blocks by increasing id. -/
def references (g : Graph) : List (BlockId × Block) :=
  g.blocks.filter fun (_, b) => b.kind.entity?.isSome

/-- What the library blocks show, by increasing id. -/
def items (g : Graph) : List ItemEntry :=
  (List.range g.nextId).filterMap fun id => (g.face? id).bind Face.item?

theorem items_eq_filterMap_blocks (g : Graph) :
    g.items = g.blocks.filterMap fun (_, b) => b.face.item? := by
  rw [items, blocks_eq, List.filterMap_filterMap]
  refine List.filterMap_congr fun id _ => ?_
  rw [face?]
  cases g.block? id <;> rfl

/-- Where each block shows what it showed of a library item, the items are the same. -/
theorem items_congr (hnext : g'.nextId = g.nextId)
    (hface : ∀ id, (g'.face? id).bind Face.item? = (g.face? id).bind Face.item?) :
    g'.items = g.items := by
  rw [items, items, hnext]
  exact List.filterMap_congr fun id _ => hface id

/-- A block more shows what it shows behind all others. -/
theorem items_snoc (hnext : g'.nextId = g.nextId + 1)
    (hold : ∀ id : Nat, id < g.nextId → g'.face? id = g.face? id) :
    g'.items = g.items ++ ((g'.face? g.nextId).bind Face.item?).toList := by
  have hbefore : (List.range g.nextId).filterMap (fun id => (g'.face? id).bind Face.item?) =
      g.items :=
    List.filterMap_congr fun id hid => by rw [hold id (List.mem_range.mp hid)]
  rw [items, hnext, List.range_succ, List.filterMap_append, hbefore]
  cases hitem : (g'.face? g.nextId).bind Face.item? <;> simp [hitem]

theorem items_insert (g : Graph) {kind : BlockKind} (hplain : kind.entity? = none) :
    (g.insert kind).items = g.items := by
  have hnew : (g.insert kind).face? g.nextId = some ⟨kind, g.grammar.defaults kind, .empty⟩ := by
    rw [face?_insert, if_pos rfl]
  rw [items_snoc (nextId_insert g kind)
    (fun id hid => by rw [face?_insert, if_neg (Nat.ne_of_lt hid)]), hnew]
  simp [Face.item?, hplain]

/-- Links are nothing that library blocks show of themselves. -/
theorem items_plug (g : Graph) (parent : BlockId) (socket : SocketName) (child : BlockId) :
    (g.plug parent socket child).items = g.items := by
  refine items_congr (nextId_relink _ _ _ _ _ _ _) fun id => ?_
  rw [plug, face?_relink]
  cases g.face? id with
  | none => rfl
  | some f =>
      rw [Option.map_some, Option.bind_some, Option.bind_some]
      split <;> rfl

/-- Fields of other blocks do not matter. -/
theorem items_modify_fields {target : BlockId} {kind : BlockKind} (f : FieldMap → FieldMap)
    (hkind : g.kind? target = some kind) (hplain : kind.entity? = none) :
    (g.modify target fun b => { b with fields := f b.fields }).items = g.items := by
  refine items_congr (nextId_modify _ _ _) fun id => ?_
  rw [face?_modify_fields]
  cases hface : g.face? id with
  | none => rfl
  | some face =>
      rw [Option.map_some, Option.bind_some, Option.bind_some]
      split
      next hid =>
        rw [← hid, kind?_eq_face?, hface] at hkind
        obtain rfl := Option.some.inj hkind
        simp [Face.item?, hplain]
      next => rfl

theorem items_placeRoots (layout : Layout) (index : Nat) (roots : List BlockId) (g : Graph) :
    (placeRoots layout index roots g).items = g.items := by
  induction roots generalizing index g with
  | nil => rfl
  | cons root rest ih =>
      rw [placeRoots, ih]
      exact items_congr (nextId_modify _ _ _) fun id => by rw [face?_modify_position]

end Graph

/-! ## What is built -/

/-- What the blocks of references show, of those that are not blank. -/
def Reference.listed (kind : LibraryKind) (r : Option Reference) : List ItemEntry :=
  ((compact r).map (entry kind)).toList

/-- What the blocks of the references of steps show. -/
def Steps.listed (s : Steps) : List ItemEntry :=
  s.toList.flatMap fun (kind, r) => Reference.listed kind.entity (some r)

/-- What the block of the reference that an event waits for shows. -/
def Event.listed (e : Event) : List ItemEntry :=
  if e.type = some .findObject then Reference.listed .object e.findObject else []

/-- What the blocks of the references of a control show. -/
def Control.listed (c : Control) : List ItemEntry :=
  match c.kind? with
  | none => c.steps.listed
  | some kind =>
      ((c.guard? kind).map Event.listed).getD [] ++ c.steps.listed ++ (c.second kind).listed

namespace Build

variable {α β : Type} {first second : List ItemEntry}

/-- In any diagram a build adds library blocks that show these entries, in this order. -/
structure Lists (m : Build α) (entries : List ItemEntry) : Prop where
  edits : Edits m
  items : ∀ g : Graph, g.IsForest → g.grammar = .standard → (m g).2.items = g.items ++ entries

/-- A build that is edits keeps the forest. -/
theorem Edits.isForest {m : Build α} (h : Edits m) {g : Graph} (hg : g.IsForest) :
    (m g).2.IsForest := by
  obtain ⟨edits, hedits⟩ := h g
  exact hedits ▸ hg.run edits

theorem Edits.grammar {m : Build α} (h : Edits m) (g : Graph) : (m g).2.grammar = g.grammar := by
  obtain ⟨edits, hedits⟩ := h g
  exact hedits ▸ Graph.grammar_run g edits

/-! ### Parts -/

/-- What leaves the library blocks alone lists nothing. -/
theorem Lists.of_items_eq {m : Build α} (hedits : Edits m) (hitems : ∀ g, (m g).2.items = g.items) :
    Lists m [] :=
  ⟨hedits, fun g _ _ => (hitems g).trans (List.append_nil _).symm⟩

theorem lists_pure (a : α) : Lists (pure a) [] := .of_items_eq (edits_pure a) fun _ => rfl

/-- Two builds in sequence list what each of them lists. -/
theorem lists_bind {m : Build α} {f : α → Build β} (hm : Lists m first)
    (hf : ∀ a, Lists (f a) second) : Lists (m >>= f) (first ++ second) where
  edits := edits_bind hm.edits fun a => (hf a).edits
  items g hg hstandard := by
    have hgrammar := (hm.edits.grammar g).trans hstandard
    rw [bind_apply, (hf _).items _ (hm.edits.isForest hg) hgrammar, hm.items g hg hstandard,
      List.append_assoc]

/-- What lists nothing does not count. -/
theorem Lists.then {m : Build α} {f : α → Build β} (hm : Lists m first)
    (hf : ∀ a, Lists (f a) []) : Lists (m >>= f) first := by
  have hboth := lists_bind hm hf
  rwa [List.append_nil] at hboth

theorem lists_get : Lists (get : Build Graph) [] := .of_items_eq (fun _ => ⟨[], rfl⟩) fun _ => rfl

theorem lists_insert {kind : BlockKind} (hplain : kind.entity? = none) : Lists (insert kind) [] :=
  .of_items_eq (edits_insert kind) fun g => g.items_insert hplain

theorem lists_pin (w : Warning) : Lists (pin w) [] := .of_items_eq (edits_pin w) fun _ => rfl

/-- A link lists nothing, whether it is made or refused. -/
theorem lists_link (parent : BlockId) (socket : SocketName) (child : BlockId) :
    Lists (link parent socket child) [] := by
  refine .of_items_eq (edits_link parent socket child) fun g => ?_
  obtain ⟨-, hlink⟩ | ⟨_, _, -, -, -, hlink⟩ | ⟨-, hlink⟩ :=
    Graph.link_cases g parent socket child <;> rw [hlink]
  · exact g.items_plug parent socket child
  · rfl

/-! ### Steps -/

/-- A reference lists itself, unless it is blank. -/
theorem lists_reference (kind : LibraryKind) (r : Reference) :
    Lists (reference kind r) (Reference.listed kind (some r)) where
  edits := edits_reference kind r
  items g hg hstandard := by
    cases hblank : r.isBlank with
    | true =>
        rw [Graph.reference_of_blank g kind hblank]
        simp [Reference.listed, Reference.compact, hblank]
    | false =>
        obtain ⟨-, hbuilt⟩ := Graph.built_reference hg hstandard kind hblank
        have hnext : (reference kind r g).2.nextId = g.nextId + 1 := by
          rw [(grows_reference kind r g).1, Reference.tree?, hblank]
          rfl
        obtain ⟨b, hb, hkind, hfields⟩ := hbuilt.grown.shown.block
        have hitem : ((reference kind r g).2.face? g.nextId).bind Face.item? =
            some (r.entry kind) := by
          rw [Graph.face?, hb, Option.map_some, Option.bind_some, Face.item?, Block.face]
          dsimp only
          rw [hkind, hfields]
          cases kind <;> rfl
        rw [Graph.items_snoc hnext fun id hid => hbuilt.face?_old hid, hitem]
        simp [Reference.listed, Reference.compact, Option.filter, hblank]

theorem lists_withReference {kind : BlockKind} (hplain : kind.entity? = none) (entity : LibraryKind)
    (r : Reference) : Lists (withReference kind entity r) (Reference.listed entity (some r)) := by
  refine lists_bind (lists_insert hplain) fun block =>
    (lists_reference entity r).then fun item => ?_
  cases item with
  | none => exact lists_pure block
  | some item => exact (lists_link _ _ _).then fun _ => lists_pure block

theorem lists_mapM {f : α → Build β} {entries : α → List ItemEntry}
    (hf : ∀ a, Lists (f a) (entries a)) (l : List α) : Lists (l.mapM f) (l.flatMap entries) := by
  induction l with
  | nil => exact lists_pure []
  | cons a rest ih =>
      rw [List.mapM_cons, List.flatMap_cons]
      exact lists_bind (hf a) fun _ => ih.then fun _ => lists_pure _

theorem lists_linkChain (ids : List BlockId) : Lists (linkChain ids) [] := by
  induction ids with
  | nil => exact lists_pure ()
  | cons first rest ih =>
      cases rest with
      | nil => exact lists_pure ()
      | cons second rest => exact (lists_link _ _ _).then fun _ => ih

theorem lists_steps (s : Steps) : Lists (steps s) s.listed := by
  have hstep : ∀ entry : StepKind × Reference,
      Lists (step entry.1 entry.2) (Reference.listed entry.1.entity (some entry.2)) :=
    fun entry => lists_withReference (by cases entry.1 <;> rfl) entry.1.entity entry.2
  exact (lists_mapM hstep s.toList).then fun chain =>
    (lists_linkChain chain).then fun _ => lists_pure chain

theorem lists_branch (owner : BlockId) (socket : SocketName) (s : Steps) :
    Lists (branch owner socket s) s.listed := by
  refine (lists_steps s).then fun chain => ?_
  cases chain with
  | nil => exact lists_pure ()
  | cons head => exact lists_link owner socket head

/-! ### Controls -/

/-- An event lists what it searches. -/
theorem lists_event (owner : BlockId) (e : Event) : Lists (event owner e) e.listed := by
  obtain ⟨type, target⟩ := e
  unfold event Event.listed
  cases type with
  | none => exact lists_pure ()
  | some type =>
      cases type with
      | other value => exact lists_pin _
      | sensor => exact (lists_insert rfl).then fun _ => lists_link _ _ _
      | human => exact (lists_insert rfl).then fun _ => lists_link _ _ _
      | findObject =>
          have htarget : Reference.listed .object (some (target.getD .blank)) =
              Reference.listed .object target := by
            cases target <;> rfl
          rw [if_pos rfl, ← htarget]
          exact (lists_withReference rfl _ _).then fun _ => lists_link _ _ _

/-- The count of a repetition is no field of a library block. -/
theorem items_set_times {g : Graph} {id : BlockId} (hkind : g.kind? id = some .repeated)
    (value : FieldValue) : (set id fieldTimes value g).2.items = g.items := by
  obtain ⟨_, -, -, hset⟩ | ⟨_, -, hset⟩ := Graph.set_cases g id fieldTimes value <;> rw [hset]
  · exact Graph.items_modify_fields (·.insert fieldTimes value) hkind rfl
  · rfl

/-- Setting the count of a repetition leaves the library blocks alone. -/
theorem items_repeatCount {g : Graph} (hstandard : g.grammar = .standard) {id : BlockId}
    (hkind : g.kind? id = some .repeated) (times : Option Int64) :
    (repeatCount id times g).2.items = g.items := by
  cases times with
  | none =>
      change (clear id fieldTimes g).2.items = g.items
      rw [Graph.clear_eq_modify (Graph.live_of_kind? hkind)]
      exact Graph.items_modify_fields (·.erase fieldTimes) hkind rfl
  | some n =>
      rw [Graph.repeatCount_some hstandard]
      split
      · exact items_set_times (g := (pin _ g).2) hkind _
      · exact items_set_times hkind _

/-- A new logic block with its count or its event. -/
def equipped (kind : BlockKind) (c : Control) : Build BlockId := do
  let id ← insert kind
  equip id kind c
  return id

/-- A new logic block lists the reference of its event. -/
theorem lists_equipped {kind : BlockKind} (hlogic : kind ∈ Grammar.logicKinds) (c : Control) :
    Lists (equipped kind c) (((c.guard? kind).map Event.listed).getD []) := by
  obtain ⟨type, times, event, otherwise, steps⟩ := c
  have hevent : ∀ kind : BlockKind, kind.entity? = none → ∀ e : Event,
      Lists (do let id ← insert kind; Build.event id e; return id) e.listed := fun kind hplain e =>
    lists_bind (lists_insert hplain) fun id => (lists_event id e).then fun _ => lists_pure id
  have hplain : ∀ kind : BlockKind, kind.entity? = none →
      Lists (do let id ← insert kind; pure (); return id) [] := fun kind hplain =>
    (lists_insert hplain).then fun id => lists_pure id
  cases kind with
  | loop => exact hplain .loop rfl
  | repeated =>
      refine ⟨?_, fun g _ hstandard => ?_⟩
      · exact edits_bind (edits_insert .repeated) fun id =>
          edits_bind (edits_repeatCount id times) fun _ => edits_pure id
      · have hkind : (g.insert .repeated).kind? g.nextId = some .repeated := by
          rw [Graph.kind?_insert, if_pos rfl]
        have hstandard' : (g.insert .repeated).grammar = .standard := hstandard
        exact ((items_repeatCount hstandard' hkind times).trans (g.items_insert rfl)).trans
          (List.append_nil _).symm
  | when =>
      cases event with
      | none => exact hplain .when rfl
      | some e => exact hevent .when rfl e
  | whenOtherwise =>
      cases event with
      | none => exact hplain .whenOtherwise rfl
      | some e => exact hevent .whenOtherwise rfl e
  | _ => exact absurd hlogic (by decide)

theorem lists_follow (previous tail : Option BlockId) (id : BlockId) (kind : BlockKind) :
    Lists (follow previous tail id kind) [] := by
  cases previous with
  | some previous => exact lists_link previous .next id
  | none =>
      cases tail with
      | none => exact lists_pure ()
      | some tail =>
          refine lists_get.then fun g => ?_
          split
          · split
            · exact lists_link tail .next id
            · exact lists_pure ()
          · exact lists_pure ()

/-- Where nothing is set, no reference is. -/
theorem listed_of_isUnset {c : Control} (h : c.isUnset = true) : c.steps.listed = [] := by
  have hblank : ∀ (kind : LibraryKind) (r : Reference), Reference.isUnset (some r) = true →
      Reference.listed kind (some r) = [] := by
    intro kind r hr
    have hr : r.isBlank = true := hr
    simp [Reference.listed, Reference.compact, hr]
  have hunset : c.steps.isUnset = true := by
    unfold Control.isUnset at h
    simp only [Bool.and_eq_true] at h
    exact h.2
  rw [Steps.isUnset, Bool.and_eq_true, Bool.and_eq_true] at hunset
  obtain ⟨⟨hpick, hprocessing⟩, hplace⟩ := hunset
  refine List.flatMap_eq_nil_iff.mpr fun entry hentry => ?_
  obtain ⟨kind', -, hr⟩ := List.mem_filterMap.mp hentry
  obtain ⟨r', hget, hsame⟩ := Option.map_eq_some_iff.mp hr
  subst hsame
  cases kind' with
  | pick => exact hblank _ _ (hget ▸ hpick)
  | processing => exact hblank _ _ (hget ▸ hprocessing)
  | place => exact hblank _ _ (hget ▸ hplace)

/-- Of a control without a logic block only the steps are read. -/
theorem lists_stray (c : Control) : Lists (stray c) c.steps.listed := by
  unfold stray
  split
  next hunset =>
    rw [listed_of_isUnset hunset.2]
    exact lists_pure ()
  next => exact (lists_steps c.steps).then fun _ => lists_pin _

/-- Controls list their references control by control. -/
theorem lists_controls (tail previous : Option BlockId) (cs : List Control) :
    Lists (controls tail previous cs) (cs.flatMap Control.listed) := by
  induction cs generalizing previous with
  | nil => exact lists_pure ()
  | cons c rest ih =>
      rw [List.flatMap_cons, Control.listed]
      cases hkind : c.kind? with
      | none =>
          have hcons : controls tail previous (c :: rest) = (do
              stray c
              controls tail previous rest) :=
            funext fun g => Graph.controls_stray hkind tail previous rest g
          rw [hcons]
          exact lists_bind (lists_stray c) fun _ => ih previous
      | some kind =>
          have hcons : controls tail previous (c :: rest) = (do
              let id ← equipped kind c
              branch id .body c.steps
              branch id .otherwise (c.second kind)
              follow previous tail id kind
              controls tail (some id) rest) := by
            funext g
            rw [Graph.controls_cons hkind, fillLogic_eq]
            rfl
          rw [hcons, List.append_assoc, List.append_assoc]
          refine lists_bind (lists_equipped (Graph.mem_logicKinds hkind) c) fun id => ?_
          refine lists_bind (lists_branch id .body c.steps) fun _ => ?_
          refine lists_bind (lists_branch id .otherwise (c.second kind)) fun _ => ?_
          exact lists_bind (lists_follow previous tail id kind) fun _ => ih (some id)

/-- A program lists the references of its steps and then those of its controls. -/
theorem lists_program (p : Program) :
    Lists (program p) (p.steps.listed ++ p.controls.flatMap Control.listed) :=
  lists_bind (lists_steps p.steps) fun chain => lists_controls chain.getLast? none p.controls

end Build

/-! ## In the order of the document -/

theorem flatMap_range_length {α β : Type} (l : List α) {f : α → List β} {g : Nat → List β}
    (h : ∀ index a, l[index]? = some a → g index = f a) :
    (List.range l.length).flatMap g = l.flatMap f := by
  have hindices : List.range l.length = l.zipIdx.map Prod.snd := by
    rw [List.zipIdx_map_snd, List.range_eq_range']
  have hentries : l.flatMap f = l.zipIdx.flatMap fun entry => f entry.1 := by
    rw [← List.flatMap_map Prod.fst f, List.zipIdx_map_fst]
  rw [hindices, List.flatMap_map, hentries]
  exact List.flatMap_congr fun entry hentry =>
    h entry.2 entry.1 (List.mem_zipIdx_iff_getElem?.mp hentry)

/-- The references of steps are listed kind by kind. -/
theorem Steps.listed_eq (s : Steps) : s.listed =
    StepKind.all.flatMap fun kind => Reference.listed kind.entity (s.get kind) := by
  rw [listed, toList, List.filterMap_eq_flatMap_toList, List.flatMap_assoc]
  refine List.flatMap_congr fun kind _ => ?_
  cases s.get kind with
  | none => rfl
  | some r => exact List.append_nil _

namespace Program

variable {p : Program} {index : Nat} {c : Control}

/-- What the block of the reference in a place shows, if it is loaded. -/
def loadedItem? (p : Program) (place : ReferencePlace) : Option ItemEntry :=
  (p.loaded? place).map (Reference.entry place.entity)

theorem filterMap_controlStep (hc : p.controls[index]? = some c) :
    (StepKind.all.map (.controlStep index)).filterMap p.loadedItem? = c.steps.listed := by
  rw [List.filterMap_map, List.filterMap_eq_flatMap_toList, Steps.listed_eq]
  refine List.flatMap_congr fun kind _ => ?_
  simp [loadedItem?, loaded?, reads, reference?, hc, Reference.listed, ReferencePlace.entity]

/-- The steps of a second branch are read under a two-way condition only. -/
theorem filterMap_otherwiseStep (hc : p.controls[index]? = some c) :
    (StepKind.all.map (.otherwiseStep index)).filterMap p.loadedItem? =
      if c.type = some .whenOtherwise then (c.otherwise.getD .empty).listed else [] := by
  rw [List.filterMap_map, List.filterMap_eq_flatMap_toList]
  split
  next htype =>
    rw [Steps.listed_eq]
    refine List.flatMap_congr fun kind _ => ?_
    have hget : c.otherwise.bind (·.get kind) = (c.otherwise.getD .empty).get kind := by
      cases c.otherwise with
      | none => cases kind <;> rfl
      | some s => rfl
    simp [loadedItem?, loaded?, reads, reference?, hc, htype, hget, Reference.listed,
      ReferencePlace.entity]
  next htype =>
    refine List.flatMap_eq_nil_iff.mpr fun kind _ => ?_
    simp [loadedItem?, loaded?, reads, hc, htype]

/-- What an event searches is read under a condition only. -/
theorem toList_target (hc : p.controls[index]? = some c) :
    (p.loadedItem? (.target index)).toList =
      if c.type = some .when ∨ c.type = some .whenOtherwise then (c.event.map Event.listed).getD []
      else [] := by
  cases hevent : c.event with
  | none => simp [loadedItem?, loaded?, reads, hc, hevent]
  | some e =>
      by_cases htype : c.type = some .when ∨ c.type = some .whenOtherwise
      · by_cases hsearch : e.type = some .findObject <;>
          simp [loadedItem?, loaded?, reads, reference?, hc, hevent, htype, hsearch, Event.listed,
            Reference.listed, ReferencePlace.entity]
      · simp [loadedItem?, loaded?, reads, hc, hevent, htype]

/-- The library blocks of a control stand for the references in its places, in their order. -/
theorem filterMap_inControl (hc : p.controls[index]? = some c) :
    (ReferencePlace.inControl index).filterMap p.loadedItem? = c.listed := by
  have hcons : (ReferencePlace.inControl index).filterMap p.loadedItem? =
      (p.loadedItem? (.target index)).toList ++
        ((StepKind.all.map (.controlStep index)).filterMap p.loadedItem? ++
          (StepKind.all.map (.otherwiseStep index)).filterMap p.loadedItem?) := by
    rw [ReferencePlace.inControl, List.filterMap_cons, List.filterMap_append]
    cases p.loadedItem? (.target index) <;> rfl
  rw [hcons, toList_target hc, filterMap_controlStep hc, filterMap_otherwiseStep hc,
    Control.listed, Control.kind?]
  cases htype : c.type with
  | none => simp
  | some type =>
      cases type <;> simp [Build.logicKind?, Control.guard?, Control.second, Steps.listed,
        Steps.toList, Steps.empty, Steps.get, StepKind.all]

/-- What the library blocks of a loaded program show, read off the places of the program. -/
theorem listed_eq (p : Program) :
    p.steps.listed ++ p.controls.flatMap Control.listed = p.places.filterMap p.loadedItem? := by
  have hsteps : (StepKind.all.map .step).filterMap p.loadedItem? = p.steps.listed := by
    rw [List.filterMap_map, List.filterMap_eq_flatMap_toList, Steps.listed_eq]
    refine List.flatMap_congr fun kind _ => ?_
    simp [loadedItem?, loaded?, reads, reference?, Reference.listed, ReferencePlace.entity]
  rw [places, List.filterMap_append, hsteps, List.filterMap_flatMap]
  congr 1
  exact (flatMap_range_length p.controls fun index c hc => filterMap_inControl hc).symm

/-- What is loaded from a place is the reference that is there. -/
theorem reference?_of_loaded? {p : Program} {place : ReferencePlace} {r : Reference}
    (h : p.loaded? place = some r) : p.reference? place = some r := by
  unfold loaded? at h
  split at h
  · exact (Option.filter_eq_some_iff.mp h).1
  · cases h

/-- No place is come to twice. -/
theorem nodup_places (p : Program) : p.places.Nodup := by
  have hall : StepKind.all.Nodup := by decide
  have hstep : (StepKind.all.map ReferencePlace.step).Nodup :=
    hall.map fun _ _ h => ReferencePlace.step.inj h
  have hcontrol : ∀ index, (ReferencePlace.inControl index).Nodup := by
    intro index
    simp [ReferencePlace.inControl, StepKind.all]
  refine hstep.append (List.nodup_flatMap.mpr ⟨fun index _ => hcontrol index, ?_⟩) ?_
  · refine (List.nodup_range (n := p.controls.length)).imp fun {i j} hne place hi hj => hne ?_
    simp only [ReferencePlace.inControl, List.mem_cons, List.mem_append, List.mem_map] at hi hj
    grind
  · intro place hplace hplace'
    obtain ⟨kind, -, rfl⟩ := List.mem_map.mp hplace
    obtain ⟨index, -, hindex⟩ := List.mem_flatMap.mp hplace'
    simp [ReferencePlace.inControl] at hindex

/-- Every reference that is loaded has its place in the order, and has it once. -/
theorem nodup_loadedPlaces (p : Program) : p.loadedPlaces.Nodup := p.nodup_places.filter _

/-- A place is among the loaded ones when something is loaded from it. -/
theorem mem_loadedPlaces {p : Program} {place : ReferencePlace} :
    place ∈ p.loadedPlaces ↔ (p.loaded? place).isSome := by
  rw [loadedPlaces, List.mem_filter, and_iff_right_iff_imp]
  intro hloaded
  obtain ⟨r, hr⟩ := Option.isSome_iff_exists.mp hloaded
  have hall : ∀ kind : StepKind, kind ∈ StepKind.all := fun kind => by cases kind <;> decide
  have hindex : ∀ index, index < p.controls.length → place ∈ ReferencePlace.inControl index →
      place ∈ p.places := fun index hlt hplace =>
    List.mem_append_right _ (List.mem_flatMap.mpr ⟨index, List.mem_range.mpr hlt, hplace⟩)
  cases place with
  | step kind => exact List.mem_append_left _ (List.mem_map_of_mem (hall kind))
  | controlStep index kind =>
      obtain ⟨c, hc, -⟩ := Option.bind_eq_some_iff.mp (reference?_of_loaded? hr)
      refine hindex index (List.getElem?_eq_some_iff.mp hc).1 ?_
      simp [ReferencePlace.inControl, hall kind]
  | otherwiseStep index kind =>
      obtain ⟨c, hc, -⟩ := Option.bind_eq_some_iff.mp (reference?_of_loaded? hr)
      refine hindex index (List.getElem?_eq_some_iff.mp hc).1 ?_
      simp [ReferencePlace.inControl, hall kind]
  | target index =>
      obtain ⟨c, hc, -⟩ := Option.bind_eq_some_iff.mp (reference?_of_loaded? hr)
      exact hindex index (List.getElem?_eq_some_iff.mp hc).1 List.mem_cons_self

end Program

/-! ## One block for each reference -/

section Pairs

variable {α β γ : Type}

/-- The members that are kept match what is made of them. -/
theorem forall₂_filterMap (f : α → Option γ) (l : List α) :
    List.Forall₂ (fun a c => f a = some c) (l.filter fun a => (f a).isSome) (l.filterMap f) := by
  induction l with
  | nil => exact .nil
  | cons a rest ih =>
      cases ha : f a with
      | none => simpa [ha] using ih
      | some c => simpa [ha] using ih

/-- Two lists that match a third match each other through it. -/
theorem forall₂_meet {R : α → γ → Prop} {S : β → γ → Prop} {as : List α} {bs : List β}
    {cs : List γ} (has : List.Forall₂ R as cs) (hbs : List.Forall₂ S bs cs) :
    List.Forall₂ (fun a b => ∃ c, R a c ∧ S b c) as bs := by
  induction has generalizing bs with
  | nil =>
      cases hbs
      exact .nil
  | cons ha _ ih =>
      cases hbs with
      | cons hb hrest => exact .cons ⟨_, ha, hb⟩ (ih hrest)

end Pairs

namespace Graph

variable (layout : Layout) (p : Program)

/-- The library blocks of a loaded program show what its places hold, in their order. -/
theorem items_ofProgram :
    (ofProgram .standard layout p).items = p.places.filterMap p.loadedItem? := by
  have hbuilt := (Build.lists_program p).items (empty .standard) (isForest_empty .standard) rfl
  rw [ofProgram, items_placeRoots, hbuilt, p.listed_eq]
  rfl

theorem eq_ofEntity {kind : BlockKind} {entity : LibraryKind} (h : kind.entity? = some entity) :
    kind = .ofEntity entity := by
  cases kind <;> cases h <;> rfl

/-- The library blocks of a loaded program stand for the references that were read from it, one for
one and in their order: each refers to what the place of its reference refers to, and holds its name
and its id. -/
theorem references_ofProgram :
    List.Forall₂ (fun place entry => ∃ r, p.loaded? place = some r ∧
      (ofProgram .standard layout p).block? entry.1 = some entry.2 ∧
      entry.2.kind = .ofEntity place.entity ∧ entry.2.fields = r.fields)
      p.loadedPlaces (ofProgram .standard layout p).references := by
  have hplaces := forall₂_filterMap p.loadedItem? p.places
  have hblocks := forall₂_filterMap (fun entry : BlockId × Block => entry.2.face.item?)
    (ofProgram .standard layout p).blocks
  rw [← items_eq_filterMap_blocks, items_ofProgram] at hblocks
  have hlive := (List.forall₂_and_left _ _).mpr
    ⟨fun entry hentry => mem_blocks.mp (List.mem_filter.mp hentry).1, hblocks⟩
  have hpairs := forall₂_meet hplaces hlive
  simp only [Program.loadedItem?, Face.item?, Option.isSome_map] at hpairs
  refine hpairs.imp fun place entry ⟨shown, hplace, hentry, hblock⟩ => ?_
  obtain ⟨r, hr, rfl⟩ := Option.map_eq_some_iff.mp hplace
  obtain ⟨kind, hkind, hshown⟩ := Option.map_eq_some_iff.mp hblock
  obtain ⟨rfl, hfields⟩ := Prod.mk.inj hshown
  exact ⟨r, hr, hentry, eq_ofEntity hkind, hfields⟩

end Graph

end TaskDiagram
