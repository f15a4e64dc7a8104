import TaskDiagram.Proofs.Graph.Loading.Logic

/-! # Loading chains of controls

The logic blocks of controls form one chain, whatever stands between them. The chain
goes on behind the last step where the grammar lets it, and stands on its own elsewhere.
-/

namespace TaskDiagram

/-- What a control without a logic block is loaded into. -/
def Build.stray (c : Control) : Build Unit :=
  if c.type = none ∧ c.isUnset then pure ()
  else bareChain ((c.type.map ControlType.text).getD "null") c

namespace Graph

variable {g g' : Graph}

/-- `g'` is `g` with some roots more. -/
structure Adds (g g' : Graph) (touched : Nat → Prop) (ts : List Tree) (found : List WarningKind) :
    Prop extends Extends g g' touched found where
  roots : ∃ beside, g'.roots = g.roots ++ beside ∧
    List.Forall₂ (g'.Shows g.nextId g'.nextId) ts beside

/-- `g'` is `g` with a chain more behind the block `owner`, and with some roots more. -/
structure Continues (g g' : Graph) (owner : Nat) (behind : Option Tree) (strays : List Tree)
    (found : List WarningKind) : Prop extends Adds g g' (· = owner) strays found where
  filled : ∃ content, Option.Rel (g'.Shows g.nextId g'.nextId) behind content ∧
    g'.face? owner =
      (g.face? owner).map fun f => { f with inputs := f.inputs.set content .next }

section Controls

variable {touched : Nat → Prop} {ts us : List Tree} {found found' : List WarningKind}

theorem Adds.refl (hg : g.IsForest) (touched : Nat → Prop) : g.Adds g touched [] [] where
  toExtends := .refl hg touched
  roots := ⟨[], (List.append_nil _).symm, .nil⟩

theorem Adds.trans {g'' : Graph} (h : g.Adds g' Untouched ts found)
    (h' : g'.Adds g'' touched us found') (hold : ∀ id : Nat, touched id → id < g.nextId) :
    g.Adds g'' touched (ts ++ us) (found ++ found') where
  toExtends := h.toExtends.trans h'.toExtends fun _ _ hor => hor.elim False.elim id
  roots := by
    obtain ⟨beside, hroots, hts⟩ := h.roots
    obtain ⟨beside', hroots', hus⟩ := h'.roots
    refine ⟨beside ++ beside', by rw [hroots', hroots, List.append_assoc], List.rel_append ?_ ?_⟩
    · refine forall₂_frame (Nat.le_refl _) h'.nextId_le (fun id h1 h2 => ?_) hts
      exact h'.face? id h2 fun htouched => Nat.not_lt_of_le h1 (hold id htouched)
    · exact forall₂_widen hus h.nextId_le (Nat.le_refl _)

theorem Grown.adds {t : Tree} (h : g.Grown g' t ts found) : g.Adds g' Untouched (t :: ts) found where
  toExtends := h.toExtends
  roots := by
    obtain ⟨beside, hroots, hts⟩ := h.roots
    exact ⟨_, hroots, .cons h.shown (forall₂_widen hts (Nat.le_succ _) (Nat.le_refl _))⟩

theorem adds_steps (hg : g.IsForest) (hstandard : g.grammar = .standard) (s : Steps) :
    g.Adds (Build.steps s g).2 Untouched s.tree?.toList [] := by
  cases htree : s.tree? with
  | none =>
      rw [steps_of_tree?_none g htree]
      exact .refl hg _
  | some t => exact (grown_steps hg hstandard htree).2.adds

/-- The steps of a control of unknown type stand on their own. -/
theorem adds_bareChain (hg : g.IsForest) (hstandard : g.grammar = .standard) (value : String)
    (c : Control) :
    g.Adds (Build.bareChain value c g).2 Untouched c.steps.tree?.toList
      [.unknownControlType value] := by
  have hsteps := adds_steps hg hstandard c.steps
  have hpin : (Build.steps c.steps g).2.Adds (Build.bareChain value c g).2 Untouched []
      [.unknownControlType value] :=
    ⟨.pin hsteps.forest ⟨_, .unknownControlType value⟩, [], (List.append_nil _).symm, .nil⟩
  simpa using hsteps.trans hpin nofun

/-- A control without a logic block leaves the chain of controls where it was. -/
theorem controls_stray {c : Control} (hkind : c.kind? = none) (tail previous : Option BlockId)
    (rest : List Control) (g : Graph) :
    Build.controls tail previous (c :: rest) g =
      Build.controls tail previous rest (Build.stray c g).2 := by
  unfold Control.kind? at hkind
  rw [Build.controls, Build.stray]
  cases htype : c.type with
  | none => cases hunset : c.isUnset <;> simp <;> rfl
  | some type =>
      rw [htype, Option.bind_some] at hkind
      simp only [hkind]
      rfl

/-- It adds only what stands beside the chain. -/
theorem adds_stray (hg : g.IsForest) (hstandard : g.grammar = .standard) {c : Control}
    (hkind : c.kind? = none) :
    g.Adds (Build.stray c g).2 Untouched c.strays c.findings := by
  unfold Build.stray Control.strays Control.findings
  rw [hkind]
  dsimp only
  split
  · exact .refl hg Untouched
  · exact adds_bareChain hg hstandard _ c

theorem mem_logicKinds {c : Control} {kind : BlockKind} (h : c.kind? = some kind) :
    kind ∈ Grammar.logicKinds := by
  obtain ⟨type, -, htype⟩ := Option.bind_eq_some_iff.mp h
  cases type <;> cases htype <;> decide

theorem first_mem_logicKinds {cs : List Control} {kind : BlockKind}
    (h : cs.findSome? Control.kind? = some kind) : kind ∈ Grammar.logicKinds := by
  obtain ⟨c, -, hc⟩ := List.exists_of_findSome?_eq_some h
  exact mem_logicKinds hc

theorem accepts_next_logic {first second : BlockKind} (hfirst : first ∈ Grammar.logicKinds)
    (hsecond : second ∈ Grammar.logicKinds) :
    Grammar.standard.accepts first .next second = true := by
  have hall : ∀ first ∈ Grammar.logicKinds, ∀ second ∈ Grammar.logicKinds,
      Grammar.standard.accepts first .next second = true := by decide
  exact hall first hfirst second hsecond

theorem controls_cons {c : Control} {kind : BlockKind} (hkind : c.kind? = some kind)
    (tail previous : Option BlockId) (rest : List Control) (g : Graph) :
    Build.controls tail previous (c :: rest) g =
      Build.controls tail (some g.nextId) rest
        (Build.follow previous tail g.nextId kind
          (Build.fillLogic g.nextId kind c (g.insert kind)).2).2 := by
  obtain ⟨type, htype, hkind⟩ := Option.bind_eq_some_iff.mp hkind
  rw [Build.controls, htype]
  simp only [hkind]
  rfl

/-- A logic block follows the one before it, or the last step where the grammar lets it. -/
theorem follow_eq {tail previous : Option BlockId} {owner id : BlockId} {before kind : BlockKind}
    (hlink : previous = some owner ∨ previous = none ∧ tail = some owner)
    (hbefore : g.kind? owner = some before) (haccepts : g.grammar.accepts before .next kind = true) :
    Build.follow previous tail id kind g = Build.link owner .next id g := by
  rcases hlink with rfl | ⟨rfl, rfl⟩
  · rfl
  · simp only [Build.follow, Build.bind_apply, Build.get_apply, hbefore, haccepts, if_true]

section Chain

variable {g₁ g₂ g₃ : Graph} {t u : Tree} {hi owner : Nat} {behind : Option Tree}
  {strays beside : List Tree}

/-- A new block with a chain behind it shows the whole chain. -/
theorem Built.topped (h : g.Built g₁ u strays found) (hnext : g₂.nextId = g₁.nextId)
    (hface : ∀ id : Nat, g.nextId ≤ id → id < g₁.nextId → g₂.face? id = g₁.face? id)
    (hcont : g₂.Continues g₃ g.nextId behind beside found') :
    g₃.Shows g.nextId g₃.nextId (u.plug .next behind) g.nextId ∧
      ∀ ids, List.Forall₂ (g₁.Shows (g.nextId + 1) g₁.nextId) strays ids →
        List.Forall₂ (g₃.Shows g.nextId g₃.nextId) strays ids := by
  have hkept : ∀ id : Nat, g.nextId < id → id < g₁.nextId → g₃.face? id = g₁.face? id := by
    intro id h1 h2
    rw [hcont.face? id (hnext ▸ h2) (Nat.ne_of_lt h1).symm, hface id (Nat.le_of_lt h1) h2]
  obtain ⟨content, hshows, hself⟩ := hcont.filled
  rw [hface g.nextId (Nat.le_refl _) h.segment.lt_hi] at hself
  have hsegment := h.segment.set_next hself hkept
  have hle : g₁.nextId ≤ g₃.nextId := hnext ▸ hcont.nextId_le
  refine ⟨hsegment.shows_plug hshows (Nat.le_refl _) ?_ hle, fun ids hids => ?_⟩
  · exact Nat.le_trans h.nextId_le (Nat.le_of_eq hnext.symm)
  · exact forall₂_frame (Nat.le_succ _) hle hkept hids

/-- A new block with a chain behind it stands on its own. -/
theorem Built.stand (h : g.Built g₁ u strays found)
    (hcont : g₁.Continues g₃ g.nextId behind beside found') :
    g.Adds g₃ Untouched (u.plug .next behind :: (strays ++ beside)) (found ++ found') := by
  obtain ⟨hshown, hstrays⟩ := h.topped rfl (fun _ _ _ => rfl) hcont
  obtain ⟨ids, hroots, hids⟩ := h.roots
  obtain ⟨ids', hroots', hids'⟩ := hcont.roots
  refine ⟨h.toExtends.trans hcont.toExtends fun id hid hor => ?_,
    g.nextId :: (ids ++ ids'), ?_, .cons hshown (List.rel_append (hstrays ids hids) ?_)⟩
  · exact hor.elim False.elim fun heq => Nat.ne_of_lt hid heq
  · rw [hroots', hroots, List.append_assoc]
    rfl
  · exact forall₂_widen hids' h.nextId_le (Nat.le_refl _)

/-- A new block can be plugged in behind an old one. -/
theorem Built.pluggable (h : g.Built g₁ u strays found) (howner : g.Segment hi t owner none)
    (hhi : hi ≤ g.nextId) (haccepts : g.grammar.accepts t.kind .next u.kind = true) :
    g₁.Pluggable owner .next g.nextId := by
  have hlt := Nat.lt_of_lt_of_le howner.lt_hi hhi
  have howner₁ := howner.frame (Nat.le_refl _) fun id _ h2 =>
    h.face? id (Nat.lt_of_lt_of_le h2 hhi) fun hnot => hnot
  obtain ⟨ids, hroots, -⟩ := h.roots
  have hroot : g.nextId ∈ g₁.roots := hroots ▸ List.mem_append_right _ List.mem_cons_self
  exact howner₁.pluggable h.forest (h.segment.shows (Nat.le_refl _)) hroot hlt (h.grammar ▸ haccepts)

/-- A new block that is plugged in behind an old one has nothing behind it yet. -/
theorem Built.segment_plug (h : g.Built g₁ u strays found) (howner : owner < g.nextId)
    (hplug : g₁.Pluggable owner .next g.nextId) :
    (g₁.plug owner .next g.nextId).Segment g₁.nextId u g.nextId none :=
  h.segment.frame (Nat.le_refl _) fun id h1 h2 =>
    (Extends.plug h.forest hplug).face? id h2 (Nat.ne_of_lt (Nat.lt_of_lt_of_le howner h1)).symm

/-- A new block with a chain behind it is plugged in behind an old one. -/
theorem Built.join (h : g.Built g₁ u strays found) (howner : owner < g.nextId)
    (hplug : g₁.Pluggable owner .next g.nextId)
    (hcont : (g₁.plug owner .next g.nextId).Continues g₃ g.nextId behind beside found') :
    g.Continues g₃ owner (some (u.plug .next behind)) (strays ++ beside) (found ++ found') := by
  have hext := Extends.plug h.forest hplug
  have hnext : (g₁.plug owner .next g.nextId).nextId = g₁.nextId := nextId_relink _ _ _ _ _ _ _
  obtain ⟨hshown, hstrays⟩ := h.topped hnext (fun id h1 h2 =>
    hext.face? id h2 (Nat.ne_of_lt (Nat.lt_of_lt_of_le howner h1)).symm) hcont
  obtain ⟨ids, hroots, hids⟩ := h.roots
  obtain ⟨ids', hroots', hids'⟩ := hcont.roots
  have hnodup := h.forest.roots_nodup
  rw [hroots] at hnodup
  have hlt := Nat.lt_of_lt_of_le howner h.nextId_le
  have hplugged : g.Extends (g₁.plug owner .next g.nextId) (· = owner) (found ++ []) :=
    h.toExtends.trans hext fun _ _ hor => hor.elim False.elim fun heq => heq
  have hall : g.Extends g₃ (· = owner) (found ++ [] ++ found') :=
    hplugged.trans hcont.toExtends fun id hid hor =>
      hor.elim (fun heq => heq) fun heq => absurd heq (Nat.ne_of_lt hid)
  rw [List.append_nil] at hall
  refine ⟨⟨hall, ids ++ ids', ?_, List.rel_append (hstrays ids hids) ?_⟩,
    some g.nextId, .some hshown, ?_⟩
  · rw [hroots']
    change g₁.roots.filter _ ++ _ = _
    rw [hroots, filter_ne_of_nodup hnodup, List.append_assoc]
  · exact forall₂_widen hids' (hnext ▸ h.nextId_le) (Nat.le_refl _)
  · rw [hcont.face? owner (hnext ▸ hlt) (Nat.ne_of_lt howner), face?_plug,
      h.face?_old howner]

end Chain

/-! ### What holds while a chain of controls is loaded -/

/-- The controls that are left go on behind `owner`: behind the logic block before them, or behind
the last step. -/
structure GoesOn (g : Graph) (tail previous : Option BlockId) (hi owner : Nat) (t : Tree)
    (cs : List Control) : Prop where
  forest : g.IsForest
  standard : g.grammar = .standard
  segment : g.Segment hi t owner none
  hi_le : hi ≤ g.nextId
  link : previous = some owner ∨ previous = none ∧ tail = some owner
  accepts : ∀ kind, cs.findSome? Control.kind? = some kind →
    Grammar.standard.accepts t.kind .next kind = true

/-- The controls that are left begin a chain of their own: no step is there, or none the chain may
follow. -/
structure BeginsAnew (g : Graph) (tail : Option BlockId) (cs : List Control) : Prop where
  forest : g.IsForest
  standard : g.grammar = .standard
  refused : ∀ last ∈ tail, ∃ kind, g.kind? last = some kind ∧
    ∀ first, cs.findSome? Control.kind? = some first →
      Grammar.standard.accepts kind .next first = false

section Step

variable {c : Control} {rest : List Control} {kind : BlockKind} {tail previous : Option BlockId}
  {hi owner : Nat} {t : Tree}

theorem GoesOn.lt_nextId (h : g.GoesOn tail previous hi owner t rest) : owner < g.nextId :=
  Nat.lt_of_lt_of_le h.segment.lt_hi h.hi_le

theorem GoesOn.stray (h : g.GoesOn tail previous hi owner t (c :: rest)) (hkind : c.kind? = none) :
    (Build.stray c g).2.GoesOn tail previous hi owner t rest := by
  have hadds := adds_stray h.forest h.standard hkind
  refine ⟨hadds.forest, hadds.grammar.trans h.standard, ?_, ?_, h.link, ?_⟩
  · exact h.segment.frame (Nat.le_refl _) fun id _ hid =>
      hadds.face? id (Nat.lt_of_lt_of_le hid h.hi_le) fun hnot => hnot
  · exact Nat.le_trans h.hi_le hadds.nextId_le
  · simpa [hkind] using h.accepts

/-- A logic block that may follow is plugged in behind the end of the chain. -/
theorem GoesOn.linked (h : g.GoesOn tail previous hi owner t (c :: rest))
    (hkind : c.kind? = some kind) :
    let filled := (Build.fillLogic g.nextId kind c (g.insert kind)).2
    filled.Pluggable owner .next g.nextId ∧
      Build.controls tail previous (c :: rest) g =
        Build.controls tail (some g.nextId) rest (filled.plug owner .next g.nextId) := by
  have haccepts := h.accepts kind (by simp [hkind])
  have hnew := built_logic h.forest h.standard (mem_logicKinds hkind) c
  have hplug := hnew.pluggable h.segment h.hi_le (h.standard ▸ haccepts)
  have hkept := h.segment.frame (Nat.le_refl _) fun id _ hid =>
    hnew.face? id (Nat.lt_of_lt_of_le hid h.hi_le) fun hnot => hnot
  refine ⟨hplug, ?_⟩
  rw [controls_cons hkind, follow_eq h.link hkept.kind (hnew.grammar ▸ h.standard ▸ haccepts),
    link_eq_plug hplug]

/-- The chain goes on behind a logic block that was plugged in. -/
theorem GoesOn.logic (h : g.GoesOn tail previous hi owner t (c :: rest))
    (hkind : c.kind? = some kind) :
    ((Build.fillLogic g.nextId kind c (g.insert kind)).2.plug owner .next g.nextId).GoesOn tail
      (some g.nextId) (Build.fillLogic g.nextId kind c (g.insert kind)).2.nextId g.nextId
      (c.tree kind) rest := by
  have hlogic := mem_logicKinds hkind
  have hnew := built_logic h.forest h.standard hlogic c
  obtain ⟨hplug, -⟩ := h.linked hkind
  have hext := Extends.plug hnew.forest hplug
  refine ⟨hext.forest, hext.grammar.trans (hnew.grammar.trans h.standard), ?_, ?_, .inl rfl, ?_⟩
  · exact hnew.segment_plug h.lt_nextId hplug
  · exact Nat.le_of_eq (nextId_relink ..).symm
  · exact fun second hsecond => accepts_next_logic hlogic (first_mem_logicKinds hsecond)

theorem BeginsAnew.stray (h : g.BeginsAnew tail (c :: rest)) (hkind : c.kind? = none) :
    (Build.stray c g).2.BeginsAnew tail rest := by
  have hadds := adds_stray h.forest h.standard hkind
  refine ⟨hadds.forest, hadds.grammar.trans h.standard, fun last hlast => ?_⟩
  obtain ⟨kind, hlastKind, hfirst⟩ := h.refused last hlast
  have hlt := (live_of_kind? hlastKind).lt_nextId
  refine ⟨kind, ?_, by simpa [hkind] using hfirst⟩
  rw [kind?_eq_face?, hadds.face?_old hlt, ← kind?_eq_face?, hlastKind]

/-- The first logic block of a chain that stands on its own is not linked. -/
theorem BeginsAnew.unlinked (h : g.BeginsAnew tail (c :: rest)) (hkind : c.kind? = some kind) :
    Build.controls tail none (c :: rest) g =
      Build.controls tail (some g.nextId) rest
        (Build.fillLogic g.nextId kind c (g.insert kind)).2 := by
  have hnew := built_logic h.forest h.standard (mem_logicKinds hkind) c
  have hfollow : Build.follow none tail g.nextId kind
      (Build.fillLogic g.nextId kind c (g.insert kind)).2 =
        ((), (Build.fillLogic g.nextId kind c (g.insert kind)).2) := by
    cases tail with
    | none => rfl
    | some last =>
        obtain ⟨before, hlast, hfirst⟩ := h.refused last rfl
        have hlt := (live_of_kind? hlast).lt_nextId
        have hbefore := hfirst kind (by simp [hkind])
        rw [kind?_eq_face?, ← hnew.face?_old hlt, ← kind?_eq_face?] at hlast
        simp only [Build.follow, Build.bind_apply, Build.get_apply, hlast,
          hnew.grammar.trans h.standard, hbefore]
        rfl
  rw [controls_cons hkind, hfollow]

/-- The chain goes on behind its first logic block. -/
theorem BeginsAnew.logic (h : g.BeginsAnew tail (c :: rest)) (hkind : c.kind? = some kind) :
    (Build.fillLogic g.nextId kind c (g.insert kind)).2.GoesOn tail (some g.nextId)
      (Build.fillLogic g.nextId kind c (g.insert kind)).2.nextId g.nextId (c.tree kind) rest := by
  have hlogic := mem_logicKinds hkind
  have hnew := built_logic h.forest h.standard hlogic c
  exact ⟨hnew.forest, hnew.grammar.trans h.standard, hnew.segment, Nat.le_refl _, .inl rfl,
    fun second hsecond => accepts_next_logic hlogic (first_mem_logicKinds hsecond)⟩

end Step

/-- The chain of controls behind a block. -/
theorem controls_continue {cs : List Control} {hi owner : Nat} {t : Tree}
    {tail previous : Option BlockId} (h : g.GoesOn tail previous hi owner t cs) :
    g.Continues (Build.controls tail previous cs g).2 owner (Tree.nest (Control.trees cs))
      (cs.flatMap Control.strays) (cs.flatMap Control.findings) := by
  -- A control without a logic block leaves the end of the chain where it was; any other
  -- makes its own block the end.
  induction cs generalizing g hi owner t previous with
  | nil =>
      refine ⟨.refl h.forest _, none, .none, ?_⟩
      obtain ⟨links, hface, -⟩ := h.segment.shown
      rw [Build.controls, Build.pure_apply, hface]
      rfl
  | cons c rest ih =>
      cases hkind : c.kind? with
      | none =>
          have hadds := adds_stray h.forest h.standard hkind
          have hcont := ih (h.stray hkind)
          obtain ⟨content, hshows, hself⟩ := hcont.filled
          rw [hadds.face?_old h.lt_nextId] at hself
          rw [controls_stray hkind, show Control.trees (c :: rest) = Control.trees rest by
            simp [Control.trees, hkind]]
          refine ⟨hadds.trans hcont.toAdds fun id hid => hid ▸ h.lt_nextId, content, ?_, hself⟩
          exact rel_widen hshows hadds.nextId_le (Nat.le_refl _)
      | some kind =>
          have hnew := built_logic h.forest h.standard (mem_logicKinds hkind) c
          obtain ⟨hplug, hrun⟩ := h.linked hkind
          have hjoined := hnew.join h.lt_nextId hplug (ih (h.logic hkind))
          rw [hrun]
          simpa [Control.trees, Control.strays, Control.findings, hkind] using hjoined

/-- Controls whose chain stands on its own. -/
theorem controls_stand {cs : List Control} {tail : Option BlockId} (h : g.BeginsAnew tail cs) :
    g.Adds (Build.controls tail none cs g).2 Untouched (Control.roots cs)
      (cs.flatMap Control.findings) := by
  induction cs generalizing g with
  | nil => exact .refl h.forest _
  | cons c rest ih =>
      cases hkind : c.kind? with
      | none =>
          have hadds := adds_stray h.forest h.standard hkind
          rw [controls_stray hkind]
          simpa [Control.roots, hkind] using hadds.trans (ih (h.stray hkind)) nofun
      | some kind =>
          -- The chain goes on behind the first logic block.
          have hnew := built_logic h.forest h.standard (mem_logicKinds hkind) c
          have hstand := hnew.stand (controls_continue (h.logic hkind))
          rw [h.unlinked hkind]
          simpa [Control.roots, Control.strays, Control.findings, hkind] using hstand

/-- A chain goes on behind the last of its blocks. -/
theorem Links.prolong {g₁ g₂ : Graph} {ids : List BlockId} {last : BlockId} {behind : Option Tree}
    {strays : List Tree} (h : g₁.Links (inChain none) g.nextId g₁.nextId ts ids)
    (hext : g.Extends g₁ Untouched []) (hroots : g₁.roots = g.roots ++ ids.head?.toList)
    (hlast : ids.getLast? = some last) (hcont : g₁.Continues g₂ last behind strays found) :
    g.Adds g₂ Untouched ((Tree.nestOnto ts behind).toList ++ strays) found := by
  obtain ⟨content, hshows, hself⟩ := hcont.filled
  obtain ⟨beside, hbeside, hstrays⟩ := hcont.roots
  have hnew := (h.range last (List.mem_of_getLast? hlast)).1
  have hchain := (h.fill_last hlast hself fun id _ h2 hne => hcont.face? id h2 hne).shows_nestOnto
    hshows hcont.nextId_le
  obtain ⟨first, hfirst⟩ : ∃ first, ids.head? = some first := by
    cases ids with
    | nil => cases hlast
    | cons first rest => exact ⟨first, rfl⟩
  rw [inChain, hfirst] at hchain
  rw [hfirst] at hroots
  refine ⟨?_, first :: beside, ?_, ?_⟩
  · exact hext.trans hcont.toExtends fun id hid hor =>
      hor.elim False.elim fun heq => Nat.not_lt_of_le hnew (heq ▸ hid)
  · rw [hbeside, hroots, List.append_assoc]
    rfl
  · obtain ⟨t, ht, hshown⟩ := exists_of_rel_right hchain
    rw [ht]
    exact .cons hshown (forall₂_widen hstrays hext.nextId_le (Nat.le_refl _))

/-- The last of the steps is where the chain of controls goes on, if the grammar lets it. -/
theorem steps_lead (hg : g.IsForest) (hstandard : g.grammar = .standard) {p : Program}
    (hlead : p.steps.leadTo p.controls = true) :
    ∃ last mid t, (Build.steps p.steps g).1.getLast? = some last ∧
      (Build.steps p.steps g).2.GoesOn (Build.steps p.steps g).1.getLast? none mid last t
        p.controls := by
  obtain ⟨hext, hlinks, -⟩ := steps_links hg hstandard p.steps
  obtain ⟨t, first, hend, hfirst, haccepts⟩ := Steps.leadTo_iff.mp hlead
  have hlast := hlinks.segment_getLast
  rw [hend] at hlast
  obtain ⟨last, htail, mid, hmid, hsegment⟩ := exists_of_rel_left hlast
  refine ⟨last, mid, t, htail, hext.forest, hext.grammar.trans hstandard, hsegment, hmid,
    .inr ⟨rfl, htail⟩, fun kind hkind => ?_⟩
  obtain rfl := Option.some.inj (hfirst.symm.trans hkind)
  exact haccepts

/-- Otherwise the last of the steps, if there is one, refuses the first logic block. -/
theorem steps_refuse (hg : g.IsForest) (hstandard : g.grammar = .standard) {p : Program}
    (hlead : p.steps.leadTo p.controls = false) :
    (Build.steps p.steps g).2.BeginsAnew (Build.steps p.steps g).1.getLast? p.controls := by
  obtain ⟨hext, hlinks, -⟩ := steps_links hg hstandard p.steps
  refine ⟨hext.forest, hext.grammar.trans hstandard, fun last htail => ?_⟩
  have hlast := hlinks.segment_getLast
  rw [Option.mem_def.mp htail] at hlast
  obtain ⟨t, hend, mid, -, hsegment⟩ := exists_of_rel_right hlast
  refine ⟨t.kind, hsegment.kind, fun first hfirst => Bool.eq_false_iff.mpr fun haccepts => ?_⟩
  rw [Steps.leadTo_iff.mpr ⟨t, first, hend, hfirst, haccepts⟩] at hlead
  cases hlead

/-- A program becomes its trees, and what does not fit is recorded. -/
theorem adds_program (hg : g.IsForest) (hstandard : g.grammar = .standard) (p : Program) :
    g.Adds (Build.program p g).2 Untouched p.trees (p.controls.flatMap Control.findings) := by
  obtain ⟨hext, hlinks, hroots⟩ := steps_links hg hstandard p.steps
  unfold Build.program Program.trees
  rw [Build.bind_apply]
  cases hlead : p.steps.leadTo p.controls with
  | true =>
      obtain ⟨last, mid, t, htail, hgoes⟩ := steps_lead hg hstandard hlead
      rw [if_pos rfl, Tree.nest, Tree.nestOnto_append]
      exact hlinks.prolong hext hroots htail (controls_continue hgoes)
  | false =>
      rw [if_neg Bool.false_ne_true]
      exact (adds_steps hg hstandard p.steps).trans
        (controls_stand (steps_refuse hg hstandard hlead)) fun _ hid => hid.elim

end Controls

end Graph

end TaskDiagram
