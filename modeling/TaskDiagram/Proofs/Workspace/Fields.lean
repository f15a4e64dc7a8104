import TaskDiagram.Graph.OfWorkspace
import TaskDiagram.Proofs.Graph.Fields

/-! # Fields of loaded nodes

Each value a node gives for a field is taken as it is, taken at the nearer bound and reported, or
refused and reported. A new block starts with the default fields of its kind: those the node does
not name are removed, the others make room for what the node gives, but a default stays where the
node's own value is refused.
-/

namespace TaskDiagram

namespace Grammar

/-- What is put into a field for a given value, and what is reported. -/
structure Reception where
  stored : Option FieldValue
  report : Option WarningKind

/-- The number between two bounds that is nearest. -/
def nearest (low high n : Int64) : Int64 := if n < low then low else if high < n then high else n

/-- How a field receives a given value. -/
def receive (grammar : Grammar) (kind : BlockKind) (name : String) (value : FieldValue) :
    Reception :=
  match grammar.checkField kind name value with
  | .ok () => ⟨some value, none⟩
  | .error (.outOfRange _ low high n) =>
      ⟨some (.int (nearest low high n)), some (.fieldClamped name n (nearest low high n))⟩
  | .error refusal => ⟨none, some (.invalidField name refusal.message)⟩

/-- What a field holds once fields have been received; a refused value leaves the default. -/
def received? (grammar : Grammar) (kind : BlockKind) (fields : FieldMap) (name : String) :
    Option FieldValue :=
  (fields.get? name).bind fun value =>
    (grammar.receive kind name value).stored.or ((grammar.defaults kind).get? name)

/-- What is reported when fields are received, in the order of their names. -/
def fieldReports (grammar : Grammar) (kind : BlockKind) (fields : FieldMap) : List WarningKind :=
  fields.entries.filterMap fun entry => (grammar.receive kind entry.1 entry.2).report

/-- The lower bound of a number is not above the upper one. -/
def BoundsOrdered (grammar : Grammar) : Prop :=
  ∀ kind name spec low high, grammar.field? kind name = some spec →
    spec.type = .bounded low high → low ≤ high

/-- The standard grammar has a number between any bounds it sets. -/
theorem boundsOrdered_standard : standard.BoundsOrdered := by
  intro kind name spec low high hspec htype
  have hmem : spec ∈ (standardSpec kind).fields := List.mem_of_find?_eq_some hspec
  cases kind with
  | repeated =>
      obtain rfl := List.mem_singleton.mp hmem
      cases htype
      decide
  | objectRef | locationRef | actionRef =>
      simp only [standardSpec, referenceSpec, List.mem_cons, List.not_mem_nil, or_false] at hmem
      obtain rfl | rfl := hmem <;> cases htype
  | _ => cases hmem

theorem le_nearest {low high : Int64} (h : low ≤ high) (n : Int64) :
    low ≤ nearest low high n ∧ nearest low high n ≤ high := by
  simp only [nearest, Int64.le_iff_toInt_le, Int64.lt_iff_toInt_lt] at *
  split
  · omega
  · split <;> omega

variable {grammar : Grammar} {kind : BlockKind} {name : String} {value : FieldValue}

/-- Only a number is out of range, and only in a field with bounds. -/
theorem checkField_eq_outOfRange {field : String} {low high n : Int64}
    (h : grammar.checkField kind name value = .error (.outOfRange field low high n)) :
    field = name ∧ ∃ spec, grammar.field? kind name = some spec ∧
      spec.type = .bounded low high ∧ value.asInt = some n ∧ ¬ (low ≤ n ∧ n ≤ high) := by
  unfold checkField at h
  split at h
  next => cases h
  next spec hspec =>
    split at h
    next => split at h <;> cases h
    next => cases h
    next => cases h
    next => cases h
    next htype hn =>
      split at h
      next => cases h
      next hout =>
        cases h
        exact ⟨rfl, spec, hspec, htype, hn, by simpa using hout⟩

/-- A number between the bounds of its field is admitted. -/
theorem checkField_of_bounds {spec : FieldSpec} {low high n : Int64}
    (hspec : grammar.field? kind name = some spec) (htype : spec.type = .bounded low high)
    (hlow : low ≤ n) (hhigh : n ≤ high) : grammar.checkField kind name (.int n) = .ok () := by
  simp [checkField, hspec, htype, FieldValue.asInt, hlow, hhigh]

/-- What the fields receive may be put into them. -/
def Receives (grammar : Grammar) (kind : BlockKind) (entries : List (String × FieldValue)) :
    Prop :=
  ∀ entry ∈ entries, ∀ stored ∈ (grammar.receive kind entry.1 entry.2).stored,
    grammar.checkField kind entry.1 stored = .ok ()

/-- Where bounds are ordered, what a field receives may be put into it, whatever was given. -/
theorem BoundsOrdered.receives (h : grammar.BoundsOrdered) (kind : BlockKind)
    (entries : List (String × FieldValue)) : grammar.Receives kind entries := by
  rintro ⟨name, value⟩ - stored hstored
  dsimp only at hstored ⊢
  unfold receive at hstored
  split at hstored
  next hcheck =>
    cases hstored
    exact hcheck
  next hcheck =>
    cases hstored
    obtain ⟨-, spec, hspec, htype, -⟩ := checkField_eq_outOfRange hcheck
    obtain ⟨hlow, hhigh⟩ := le_nearest (h kind name spec _ _ hspec htype) _
    exact checkField_of_bounds hspec htype hlow hhigh
  next => cases hstored

/-- A value the grammar admits is taken as it is. -/
theorem receive_of_ok (h : grammar.checkField kind name value = .ok ()) :
    grammar.receive kind name value = ⟨some value, none⟩ := by
  rw [receive, h]

theorem Admits.receives {fields : FieldMap} (h : grammar.Admits kind fields) :
    grammar.Receives kind fields.entries := by
  rintro ⟨name, value⟩ hmem stored hstored
  have hvalue := h name value ((mem_iff_findValue? fields.increasing name value).mp hmem)
  rw [receive_of_ok hvalue] at hstored
  cases hstored
  exact hvalue

/-- Admitted fields are received as they are, and nothing is reported. -/
theorem Admits.received? {fields : FieldMap} (h : grammar.Admits kind fields) (name : String) :
    grammar.received? kind fields name = fields.get? name := by
  unfold Grammar.received?
  cases hvalue : fields.get? name with
  | none => rfl
  | some value => simp [receive_of_ok (h name value hvalue)]

/-- Nothing is reported of fields that the grammar admits. -/
theorem Admits.fieldReports {fields : FieldMap} (h : grammar.Admits kind fields) :
    grammar.fieldReports kind fields = [] := by
  apply List.filterMap_eq_nil_iff.mpr
  rintro ⟨name, value⟩ hmem
  have hvalue := (mem_iff_findValue? fields.increasing name value).mp hmem
  simp [receive_of_ok (h name value hvalue)]

/-- Nothing is reported of admitted fields only. -/
theorem admits_of_fieldReports {fields : FieldMap} (h : grammar.fieldReports kind fields = []) :
    grammar.Admits kind fields := by
  intro name value hvalue
  have hmem := (mem_iff_findValue? fields.increasing name value).mpr hvalue
  have hnone := List.filterMap_eq_nil_iff.mp h _ hmem
  dsimp only at hnone
  unfold receive at hnone
  split at hnone
  next hcheck => exact hcheck
  next => cases hnone
  next => cases hnone

end Grammar

namespace Graph

variable {g g' g'' : Graph} {id : BlockId} {fields fields' : FieldMap}
  {found found' : List Warning}

/-- `g'` is `g` with other fields on one block and with more findings. -/
structure Refielded (g g' : Graph) (id : BlockId) (fields : FieldMap) (found : List Warning) :
    Prop where
  grammar : g'.grammar = g.grammar
  nextId : g'.nextId = g.nextId
  roots : g'.roots = g.roots
  block? : ∀ other, g'.block? other =
    (g.block? other).map fun b => if other = id then { b with fields := fields } else b
  pinned : g'.pinned = g.pinned ++ found

theorem Refielded.refl {b : Block} (hb : g.block? id = some b) :
    g.Refielded g id b.fields [] where
  grammar := rfl
  nextId := rfl
  roots := rfl
  block? other := by
    by_cases h : other = id
    · simp [h, hb]
    · simp [h]
  pinned := (List.append_nil _).symm

/-- Changes of the fields of one block follow on each other, with the findings of both. -/
theorem Refielded.trans (h : g.Refielded g' id fields found)
    (h' : g'.Refielded g'' id fields' found') : g.Refielded g'' id fields' (found ++ found') where
  grammar := h'.grammar.trans h.grammar
  nextId := h'.nextId.trans h.nextId
  roots := h'.roots.trans h.roots
  block? other := by
    rw [h'.block?, h.block?, Option.map_map]
    congr 1
    funext b
    dsimp only [Function.comp]
    split <;> rfl
  pinned := by rw [h'.pinned, h.pinned, List.append_assoc]

theorem Refielded.pin (h : g.Refielded g' id fields found) (w : Warning) :
    g.Refielded (g'.pin w) id fields (found ++ [w]) where
  grammar := h.grammar
  nextId := h.nextId
  roots := h.roots
  block? := h.block?
  pinned := by
    rw [Graph.pin, h.pinned, List.append_assoc]

/-- The block itself with its new fields. -/
theorem Refielded.self (h : g.Refielded g' id fields found) {b : Block}
    (hb : g.block? id = some b) : g'.block? id = some { b with fields := fields } := by
  rw [h.block?, hb]
  simp

/-- A change of fields leaves the rest of the block alone. -/
theorem refielded_modify {b : Block} (hb : g.block? id = some b) (f : FieldMap → FieldMap) :
    g.Refielded (g.modify id fun b => { b with fields := f b.fields }) id (f b.fields) [] where
  grammar := grammar_modify _ _ _
  nextId := nextId_modify _ _ _
  roots := roots_modify _ _ _
  block? other := by
    rw [block?_modify]
    by_cases h : other = id
    · simp [h, hb]
    · simp [h]
  pinned := by rw [pinned_modify, List.append_nil]

/-! ## Steps -/

/-- Clearing a field takes it out of the block and reports nothing. -/
theorem refielded_clear {b : Block} (hb : g.block? id = some b) (name : String) :
    g.Refielded (Build.clear id name g).2 id (b.fields.erase name) [] := by
  rw [clear_eq_modify (by simp [Live, hb])]
  exact refielded_modify hb fun fields => fields.erase name

/-- A refused value is reported, and the field stays. -/
theorem set_eq_pin {b : Block} (hb : g.block? id = some b) {name : String} {value : FieldValue}
    {refusal : FieldRefusal} (h : g.grammar.checkField b.kind name value = .error refusal) :
    Build.set id name value g =
      ((), g.pin (.about id (.invalidField name refusal.message))) := by
  have herror : g.setField id name value = .error (.invalidField id refusal) := by
    simp [setField, require, hb, h, bind, Except.bind, throw, throwThe, MonadExceptOf.throw]
  rw [Build.set, herror]
  rfl

/-- Setting a field to an admitted value puts it into the block and reports nothing. -/
theorem refielded_set {b : Block} (hb : g.block? id = some b) {name : String} {value : FieldValue}
    (h : g.grammar.checkField b.kind name value = .ok ()) :
    g.Refielded (Build.set id name value g).2 id (b.fields.insert name value) [] := by
  have hkind : g.kind? id = some b.kind := by rw [kind?, hb]; rfl
  rw [set_eq_modify hkind h]
  exact refielded_modify hb fun fields => fields.insert name value

/-- Fields with a received value put in. -/
def putField (fields : FieldMap) (name : String) : Option FieldValue → FieldMap
  | some value => fields.insert name value
  | none => fields

/-- A value that is put hides what was there; one that is refused does not. -/
theorem get?_putField (fields : FieldMap) (name : String) (stored : Option FieldValue)
    (other : String) : (putField fields name stored).get? other =
      if other = name then stored.or (fields.get? name) else fields.get? other := by
  cases stored with
  | none =>
      split
      next h => simp [putField, h]
      next => rfl
  | some value => exact TextMap.get?_insert fields name other value

/-- The findings about one block. -/
def reportsAt (id : BlockId) (reports : List WarningKind) : List Warning :=
  reports.map (.about id)

/-- A block receives one field of its node, with the report of it. -/
theorem refielded_loadField {b : Block} (hb : g.block? id = some b) (name : String)
    (value : FieldValue) (hfit : ∀ stored ∈ (g.grammar.receive b.kind name value).stored,
      g.grammar.checkField b.kind name stored = .ok ()) :
    g.Refielded (Build.loadField id name value g).2 id
      (putField b.fields name (g.grammar.receive b.kind name value).stored)
      (reportsAt id (g.grammar.receive b.kind name value).report.toList) := by
  have hchecked : ((g.kind? id).map fun kind => g.grammar.checkField kind name value) =
      some (g.grammar.checkField b.kind name value) := by
    simp [kind?, hb]
  unfold Grammar.receive at hfit ⊢
  simp only [Build.loadField, bind, StateT.bind, get, getThe, MonadStateOf.get, StateT.get, pure,
    hchecked]
  cases hcheck : g.grammar.checkField b.kind name value with
  | ok => exact refielded_set hb hcheck
  | error refusal =>
      cases refusal with
      | outOfRange field low high n =>
          -- The report is pinned first, and then the nearest bound is stored.
          simp only [hcheck, Option.mem_some_iff, forall_eq'] at hfit
          have hpinned := (Refielded.refl hb).pin
            (.about id (.fieldClamped name n (Grammar.nearest low high n)))
          have hset := refielded_set (g := g.pin (.about id
            (.fieldClamped name n (Grammar.nearest low high n)))) hb hfit
          exact hpinned.trans hset
      | _ =>
          dsimp only
          rw [set_eq_pin hb hcheck]
          exact (Refielded.refl hb).pin _

/-! ## Runs -/

/-- Fields removed one after the other. -/
theorem refielded_clear_forM (entries : List (String × FieldValue)) {g : Graph} {b : Block}
    (hb : g.block? id = some b) :
    ∃ fields, g.Refielded ((entries.forM fun entry => Build.clear id entry.1) g).2 id fields [] ∧
      ∀ name, fields.get? name =
        if name ∈ entries.map (·.1) then none else b.fields.get? name := by
  induction entries generalizing g b with
  | nil => exact ⟨b.fields, .refl hb, fun name => by simp⟩
  | cons entry rest ih =>
      obtain ⟨first, value⟩ := entry
      have hclear := refielded_clear hb first
      obtain ⟨fields, hrest, hfields⟩ := ih (hclear.self hb)
      refine ⟨fields, hclear.trans hrest, fun name => ?_⟩
      rw [hfields, TextMap.get?_erase]
      by_cases hname : name = first
      · simp [hname]
      · simp only [List.map_cons, List.mem_cons, hname, false_or, if_false]

/-- Values received one after the other, each field once. -/
theorem refielded_loadField_forM {entries : List (String × FieldValue)}
    (hentries : KeysIncrease entries) {g : Graph} {b : Block} (hb : g.block? id = some b)
    (hfit : g.grammar.Receives b.kind entries) :
    ∃ fields, g.Refielded ((entries.forM fun entry => Build.loadField id entry.1 entry.2) g).2 id
        fields (reportsAt id (entries.filterMap fun entry =>
          (g.grammar.receive b.kind entry.1 entry.2).report)) ∧
      ∀ name, fields.get? name =
        match findValue? name entries with
        | some value => (g.grammar.receive b.kind name value).stored.or (b.fields.get? name)
        | none => b.fields.get? name := by
  induction entries generalizing g b with
  | nil => exact ⟨b.fields, .refl hb, fun name => rfl⟩
  | cons entry rest ih =>
      obtain ⟨first, value⟩ := entry
      have hrest := (List.pairwise_cons.mp hentries).2
      obtain ⟨hfirst, hfit⟩ := List.forall_mem_cons.mp hfit
      have hload := refielded_loadField hb first value hfirst
      obtain ⟨fields, hmore, hfields⟩ := ih hrest (hload.self hb) (hload.grammar ▸ hfit)
      rw [hload.grammar] at hmore hfields
      refine ⟨fields, ?_, fun name => ?_⟩
      · rw [List.filterMap_eq_flatMap_toList, List.flatMap_cons, ← List.filterMap_eq_flatMap_toList,
          reportsAt, List.map_append]
        exact hload.trans hmore
      · rw [hfields, get?_putField]
        by_cases hname : name = first
        · subst hname
          have hnone := findValue?_of_increasing hentries
          have hself : findValue? name ((name, value) :: rest) = some value := by
            simp [findValue?]
          simp only [hnone, hself, if_true]
        · have hother : findValue? name ((first, value) :: rest) = findValue? name rest := by
            simp [findValue?, Ne.symm hname]
          simp only [hother, hname, if_false]

/-- A new block receives the fields of its node. -/
theorem refielded_loadFields {b : Block} (hb : g.block? id = some b)
    (hnew : b.fields = g.grammar.defaults b.kind) {fields : FieldMap}
    (hfit : g.grammar.Receives b.kind fields.entries) :
    ∃ received, g.Refielded (Build.loadFields id fields g).2 id received
        (reportsAt id (g.grammar.fieldReports b.kind fields)) ∧
      ∀ name, received.get? name = g.grammar.received? b.kind fields name := by
  obtain ⟨cleared, hcleared, hget⟩ := refielded_clear_forM
    (b.fields.entries.filter fun entry => (fields.get? entry.1).isNone) hb
  obtain ⟨received, hreceived, hgetReceived⟩ := refielded_loadField_forM fields.increasing
    (hcleared.self hb) (hcleared.grammar ▸ hfit)
  -- First the defaults that the node does not name are cleared, then its own fields are received.
  have hrun : Build.loadFields id fields g =
      (fields.entries.forM fun entry => Build.loadField id entry.1 entry.2)
        (((b.fields.entries.filter fun entry => (fields.get? entry.1).isNone).forM
          fun entry => Build.clear id entry.1) g).2 := by
    have hdefaults : ((g.block? id).map (·.fields.entries)).getD [] = b.fields.entries := by
      rw [hb]
      rfl
    rw [← hdefaults]
    rfl
  rw [hrun]
  rw [hcleared.grammar] at hreceived hgetReceived
  refine ⟨received, hcleared.trans hreceived, fun name => ?_⟩
  rw [hgetReceived, Grammar.received?, ← hnew]
  dsimp only
  rw [hget]
  change (match fields.get? name with | some _ => _ | none => _) = _
  cases hvalue : fields.get? name with
  | some value =>
      have hkept : name ∉ (b.fields.entries.filter fun entry =>
          (fields.get? entry.1).isNone).map (·.1) := by
        simp [hvalue]
      simp [hkept]
  | none =>
      dsimp only [Option.bind_none]
      split
      next => rfl
      next hmissing =>
        -- A default that is not named was among those that were cleared.
        cases hdefault : b.fields.get? name with
        | none => rfl
        | some value =>
            have hmem := (mem_iff_findValue? b.fields.increasing name value).mpr hdefault
            exact absurd (List.mem_map.mpr ⟨_, List.mem_filter.mpr ⟨hmem, by simp [hvalue]⟩, rfl⟩)
              hmissing

end Graph

end TaskDiagram
