import TaskDiagram.Proofs.Graph.Loading.Steps

/-! # Loading logic blocks

A control of known type becomes a logic block. Its count is moved into bounds, and the
event and the branches that its sockets refuse stay beside it.
-/

namespace TaskDiagram

/-- The count or the event of a logic block, before its branches. -/
def Build.equip (id : BlockId) (kind : BlockKind) (c : Control) : Build Unit :=
  match kind, c.guard? kind with
  | .repeated, _ => repeatCount id c.times
  | _, some e => event id e
  | _, none => pure ()

/-- A logic block is equipped before its branches are filled; a block that cannot have a second
branch is given an empty one. -/
theorem Build.fillLogic_eq (id : BlockId) (kind : BlockKind) (c : Control) (g : Graph) :
    (fillLogic id kind c g).2 = (branch id .otherwise (c.second kind)
      (branch id .body c.steps (equip id kind c g).2).2).2 := by
  obtain ⟨type, times, event, otherwise, steps⟩ := c
  cases kind with
  | when => cases event <;> rfl
  | whenOtherwise => cases event <;> cases otherwise <;> rfl
  | _ => rfl

namespace Control

variable (c : Control) (kind : BlockKind)

/-- The logic block of a control before its branches are filled. -/
def equipped : Tree :=
  (Tree.node kind (c.fields kind) []).plug .when ((c.guard? kind).bind Event.tree?)

theorem openAt_equipped {socket : SocketName} (hs : SocketName.when.index < socket.index) :
    (c.equipped kind).OpenAt socket := (Tree.openAt_nil _ _ _).plug hs _

theorem openAt_otherwise :
    ((c.equipped kind).plug .body (c.steps.plugged kind .body)).OpenAt .otherwise :=
  (c.openAt_equipped kind (by decide)).plug (by decide) _

end Control

namespace Graph

variable {g g' : Graph} {t : Tree} {strays : List Tree} {found : List WarningKind}

/-- Steps are put into a socket of the new block, or stay beside it. -/
theorem Built.branch (h : g.Built g' t strays found) (hstandard : g.grammar = .standard)
    {socket : SocketName} (hopen : t.OpenAt socket) (hs : socket ≠ .next) (s : Steps) :
    g.Built (Build.branch g.nextId socket s g').2 (t.plug socket (s.plugged t.kind socket))
      (strays ++ s.detached t.kind socket) (found ++ s.refusal t.kind socket) := by
  have hgrammar := h.grammar.trans hstandard
  unfold Build.branch Steps.plugged Steps.detached Steps.refusal Steps.fit
  rw [s.first?_eq, Build.bind_apply]
  cases htree : s.tree? with
  | none =>
      rw [steps_of_tree?_none g' htree]
      simpa [Build.pure_apply] using h
  | some u =>
      obtain ⟨hhead, hgrown⟩ := grown_steps h.forest hgrammar htree
      generalize Build.steps s g' = built at *
      obtain ⟨ids, g''⟩ := built
      cases ids with
      | nil => cases hhead
      | cons head rest =>
          obtain rfl := Option.some.inj hhead
          by_cases haccepts : Grammar.standard.accepts t.kind socket u.kind = true
          · simpa [haccepts] using h.fill hgrown hopen hs (hstandard ▸ haccepts)
          · simpa [haccepts] using h.refuse hgrown (hstandard ▸ Bool.eq_false_iff.mpr haccepts)

/-- The event of a conditional block. -/
theorem Built.event (h : g.Built g' t strays found) (hstandard : g.grammar = .standard)
    (hopen : t.OpenAt .when) (hkind : t.kind = .when ∨ t.kind = .whenOtherwise) (e : Event) :
    g.Built (Build.event g.nextId e g').2 (t.plug .when e.tree?) strays (found ++ e.findings) := by
  have hgrammar := h.grammar.trans hstandard
  have haccepts : ∀ kind ∈ Grammar.eventKinds, g.grammar.accepts t.kind .when kind = true := by
    rw [hstandard]
    rcases hkind with hkind | hkind <;> rw [hkind] <;> decide
  -- An event without an object is a bare block in the socket.
  have hplain : ∀ kind, Grammar.standard.defaults kind = .empty → kind ∈ Grammar.eventKinds →
      g.Built (Build.link g.nextId .when g'.nextId (g'.insert kind)).2
        (t.plug .when (some (.node kind .empty []))) strays found := by
    intro kind hdefaults hevent
    have hnew := (Built.insert h.forest kind).grown
    rw [hgrammar, hdefaults] at hnew
    simpa using h.fill hnew hopen (by decide) (haccepts kind hevent)
  obtain ⟨type, findObject⟩ := e
  unfold Build.event Event.tree? Event.findings
  cases type with
  | none => simpa [Build.pure_apply] using h
  | some type =>
      cases type with
      | other value =>
          rw [Tree.plug_none]
          exact h.pin (.about g.nextId (.unknownEventType value))
      | sensor =>
          rw [List.append_nil]
          exact hplain .sensorSignal rfl (by decide)
      | human =>
          rw [List.append_nil]
          exact hplain .humanFeedback rfl (by decide)
      | findObject =>
          obtain ⟨hid, hbuilt⟩ := built_withReference h.forest hgrammar rfl
            (show Grammar.standard.accepts .findObject (.ofEntity .object) (.ofEntity .object) = true
              from rfl) (findObject.getD .blank)
          have hfill := h.fill hbuilt.grown hopen (by decide) (haccepts .findObject (by decide))
          simp only [Build.bind_apply, hid]
          simpa using hfill

/-- A count within the bounds is admitted by the grammar. -/
theorem checkField_times (n : Int64) :
    Grammar.standard.checkField .repeated fieldTimes (.int (clampCount n)) = .ok () := by
  have hcheck : ∀ n : Int64, Grammar.repeatMin ≤ n → n ≤ Grammar.repeatMax →
      Grammar.standard.checkField .repeated fieldTimes (.int n) = .ok () := by
    intro n hlow hhigh
    have hspec : Grammar.standard.field? .repeated fieldTimes = some ⟨fieldTimes,
        .bounded Grammar.repeatMin Grammar.repeatMax, some (.int Grammar.repeatDefault)⟩ := rfl
    simp [Grammar.checkField, hspec, FieldValue.asInt, hlow, hhigh]
  unfold clampCount
  split
  · exact hcheck _ (by decide) (by decide)
  next hlow =>
    split
    · exact hcheck _ (by decide) (by decide)
    next hhigh => exact hcheck n (Int64.not_lt.mp hlow) (Int64.not_lt.mp hhigh)

theorem repeatCount_some (hstandard : g.grammar = .standard) (id : BlockId) (n : Int64) :
    Build.repeatCount id (some n) g =
      if clampCount n ≠ n then
        Build.set id fieldTimes (.int (clampCount n))
          (Build.pin (.about id (.fieldClamped fieldTimes n (clampCount n))) g).2
      else Build.set id fieldTimes (.int (clampCount n)) g := by
  have hspec : ((g.grammar.field? .repeated fieldTimes).bind (·.clamp n)).getD n = clampCount n := by
    rw [hstandard]
    rfl
  unfold Build.repeatCount
  simp only [Build.bind_apply, Build.get_apply, hspec]
  split <;> rfl

/-- The count of a repetition. -/
theorem built_repeatCount (hg : g.IsForest) (hstandard : g.grammar = .standard) (c : Control) :
    g.Built (Build.repeatCount g.nextId c.times (g.insert .repeated)).2
      (.node .repeated (c.fields .repeated) []) [] (c.countFindings .repeated) := by
  have hnew := Built.insert hg .repeated
  have hfields : Grammar.standard.defaults .repeated =
      .insert .empty fieldTimes (.int Grammar.repeatDefault) := rfl
  have hstandard' : (g.insert .repeated).grammar = .standard := hstandard
  rw [hstandard, hfields] at hnew
  unfold Control.fields Control.countFindings
  cases c.times with
  | none => exact hnew.clear fieldTimes
  | some n =>
      have hset : g.grammar.checkField .repeated fieldTimes (.int (clampCount n)) = .ok () :=
        hstandard ▸ checkField_times n
      rw [repeatCount_some hstandard']
      by_cases hclamp : clampCount n = n
      · rw [if_neg (not_not.mpr hclamp)]
        dsimp only
        rw [if_neg (not_not.mpr hclamp)]
        exact hnew.set hset
      · rw [if_pos hclamp]
        dsimp only
        rw [if_pos hclamp]
        exact (hnew.pin _).set hset

theorem built_equip (hg : g.IsForest) (hstandard : g.grammar = .standard) {kind : BlockKind}
    (hlogic : kind ∈ Grammar.logicKinds) (c : Control) :
    g.Built (Build.equip g.nextId kind c (g.insert kind)).2 (c.equipped kind) []
      (c.countFindings kind ++ ((c.guard? kind).map Event.findings).getD []) := by
  have hnew := Built.insert hg kind
  rw [hstandard] at hnew
  obtain ⟨type, times, event, otherwise, steps⟩ := c
  have hevent : ∀ e, kind = .when ∨ kind = .whenOtherwise →
      g.Built (Build.event g.nextId e (g.insert kind)).2
        ((Tree.node kind (Grammar.standard.defaults kind) []).plug .when e.tree?) [] e.findings :=
    fun e hkind => hnew.event hstandard (Tree.openAt_nil _ _ _) hkind e
  cases kind with
  | loop => exact hnew
  | repeated =>
      have hcount := built_repeatCount hg hstandard ⟨type, times, event, otherwise, steps⟩
      simpa [Control.equipped, Control.guard?, Build.equip] using hcount
  | when =>
      cases event with
      | none => exact hnew
      | some e => exact hevent e (.inl rfl)
  | whenOtherwise =>
      cases event with
      | none => exact hnew
      | some e => exact hevent e (.inr rfl)
  | _ => exact absurd hlogic (by decide)

/-- The body of a logic block is filled before its second branch. -/
theorem built_body (hg : g.IsForest) (hstandard : g.grammar = .standard) {kind : BlockKind}
    (hlogic : kind ∈ Grammar.logicKinds) (c : Control) :
    g.Built
      (Build.branch g.nextId .body c.steps (Build.equip g.nextId kind c (g.insert kind)).2).2
      ((c.equipped kind).plug .body (c.steps.plugged kind .body)) (c.steps.detached kind .body)
      (c.countFindings kind ++ ((c.guard? kind).map Event.findings).getD [] ++
        c.steps.refusal kind .body) :=
  (built_equip hg hstandard hlogic c).branch hstandard (c.openAt_equipped kind (by decide))
    (by decide) c.steps

/-- A control of known type becomes a logic block with all that its sockets accept. -/
theorem built_logic (hg : g.IsForest) (hstandard : g.grammar = .standard) {kind : BlockKind}
    (hlogic : kind ∈ Grammar.logicKinds) (c : Control) :
    g.Built (Build.fillLogic g.nextId kind c (g.insert kind)).2 (c.tree kind) (c.refused kind)
      (c.complaints kind) := by
  rw [Build.fillLogic_eq]
  exact (built_body hg hstandard hlogic c).branch hstandard (c.openAt_otherwise kind) (by decide) _

end Graph

end TaskDiagram
