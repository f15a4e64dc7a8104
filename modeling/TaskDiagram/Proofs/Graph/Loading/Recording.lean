import TaskDiagram.Proofs.Graph.Loading.Program
import TaskDiagram.Proofs.Graph.Loading.Reports

/-! # Loading records its reports

Control by control, loading records exactly what is found about it, and the blocks that the findings
point at stay where they are: a logic block keeps what is plugged into it whatever follows it, and a
chain that stands alone is left alone.
-/

namespace TaskDiagram

open TaskDiagram.Tree (total)

namespace Graph

variable {g g' g'' : Graph} {t u : Tree} {strays : List Tree} {found : List WarningKind}

/-! ## Links -/

theorem face?_link {parent child id : BlockId} (hid : id ≠ parent) (socket : SocketName)
    (g : Graph) : (Build.link parent socket child g).2.face? id = g.face? id := by
  obtain ⟨-, hlink⟩ | ⟨_, _, -, -, -, hlink⟩ | ⟨-, hlink⟩ := link_cases g parent socket child <;>
    rw [hlink]
  · rw [plug, face?_relink]
    simp [hid]
  · rfl

/-- Only the child may cease to be a root. -/
theorem mem_roots_link {parent child id : BlockId} (hid : id ≠ child) (socket : SocketName)
    (hroot : id ∈ g.roots) : id ∈ (Build.link parent socket child g).2.roots := by
  obtain ⟨-, hlink⟩ | ⟨_, _, -, -, -, hlink⟩ | ⟨-, hlink⟩ := link_cases g parent socket child <;>
    rw [hlink]
  · rw [plug, roots_relink]
    exact List.mem_filter.mpr ⟨hroot, by simpa using hid⟩
  · exact hroot
  · exact hroot

/-! ## Branches -/

theorem pinned_steps (hg : g.IsForest) (hstandard : g.grammar = .standard) (s : Steps) :
    (Build.steps s g).2.pinned = g.pinned :=
  (Extends.refl hg Untouched).pinned_eq (steps_links hg hstandard s).1 (Build.grows_steps s g).2

/-- A chain that stands alone: its first block is a root, and its ids are from `lo` on. -/
def StandsAlone (g : Graph) (lo : Nat) (entry : BlockId × Tree) : Prop :=
  entry.1 ∈ g.roots ∧ g.Shows lo g.nextId entry.2 entry.1

/-- A chain still stands alone when nothing touches its blocks. -/
theorem StandsAlone.carry {lo lo' : Nat} {entry : BlockId × Tree} (h : g.StandsAlone lo entry)
    (hlo : lo' ≤ lo) (hnext : g.nextId ≤ g'.nextId)
    (hface : ∀ id : Nat, lo ≤ id → id < g.nextId → g'.face? id = g.face? id)
    (hroots : ∀ id ∈ g.roots, lo ≤ id → id ∈ g'.roots) : g'.StandsAlone lo' entry :=
  ⟨hroots entry.1 h.1 h.2.lo_le, h.2.frame hlo hnext hface⟩

theorem StandsAlone.widen {lo lo' : Nat} {entry : BlockId × Tree} (h : g.StandsAlone lo entry)
    (hlo : lo' ≤ lo) : g.StandsAlone lo' entry :=
  h.carry hlo (Nat.le_refl _) (fun _ _ _ => rfl) fun _ hroot _ => hroot

/-- Steps are built beside what is there, and then their first block is linked. -/
theorem branch_cases (hg : g.IsForest) (hstandard : g.grammar = .standard) (owner : BlockId)
    (socket : SocketName) (s : Steps) :
    (s.tree? = none ∧ (Build.branch owner socket s g).2 = g) ∨
      ∃ u, s.tree? = some u ∧ g.Grown (Build.steps s g).2 u [] [] ∧
        (Build.branch owner socket s g).2 =
          (Build.link owner socket g.nextId (Build.steps s g).2).2 := by
  unfold Build.branch
  rw [Build.bind_apply]
  cases htree : s.tree? with
  | none =>
      rw [steps_of_tree?_none g htree]
      exact .inl ⟨rfl, rfl⟩
  | some u =>
      obtain ⟨hhead, hgrown⟩ := grown_steps hg hstandard htree
      refine .inr ⟨u, rfl, hgrown, ?_⟩
      cases hids : (Build.steps s g).1 with
      | nil =>
          rw [hids] at hhead
          cases hhead
      | cons head rest =>
          rw [hids] at hhead
          obtain rfl := Option.some.inj hhead
          rfl

/-- Filling a branch changes no block but its owner. -/
theorem face?_branch (hg : g.IsForest) (hstandard : g.grammar = .standard) {owner id : Nat}
    (hid : id < g.nextId) (hne : id ≠ owner) (socket : SocketName) (s : Steps) :
    (Build.branch owner socket s g).2.face? id = g.face? id := by
  rcases branch_cases hg hstandard owner socket s with ⟨-, hrun⟩ | ⟨u, -, hgrown, hrun⟩
  · rw [hrun]
  · rw [hrun, face?_link hne, hgrown.face?_old hid]

theorem mem_roots_branch (hg : g.IsForest) (hstandard : g.grammar = .standard) {id : BlockId}
    (hroot : id ∈ g.roots) (owner : BlockId) (socket : SocketName) (s : Steps) :
    id ∈ (Build.branch owner socket s g).2.roots := by
  rcases branch_cases hg hstandard owner socket s with ⟨-, hrun⟩ | ⟨u, -, hgrown, hrun⟩
  · rwa [hrun]
  · have hlt := (hg.mem_roots.mp hroot).1.lt_nextId
    obtain ⟨beside, hroots, -⟩ := hgrown.roots
    rw [hrun]
    exact mem_roots_link (Nat.ne_of_lt hlt) socket (hroots ▸ List.mem_append_left _ hroot)

/-- Filling a branch of an older block leaves alone what stands alone. -/
theorem StandsAlone.branch {lo : Nat} {entry : BlockId × Tree} (h : g.StandsAlone lo entry)
    (hg : g.IsForest) (hstandard : g.grammar = .standard) {owner : Nat} (howner : owner < lo)
    (socket : SocketName) (s : Steps) :
    (Build.branch owner socket s g).2.StandsAlone lo entry := by
  refine h.carry (Nat.le_refl _) ?_ (fun id h1 h2 => ?_) fun id hroot _ => ?_
  · rw [(Build.grows_branch owner socket s g).1]
    exact Nat.le_add_right _ _
  · exact face?_branch hg hstandard h2 (Nat.ne_of_lt (Nat.lt_of_lt_of_le howner h1)).symm socket s
  · exact mem_roots_branch hg hstandard hroot owner socket s

namespace Built

variable (h : g.Built g' t strays found) (hstandard : g.grammar = .standard)
  {socket : SocketName} {s : Steps}

include h hstandard

theorem pinned_event (hopen : t.OpenAt .when) (hkind : t.kind = .when ∨ t.kind = .whenOtherwise)
    (e : Event) :
    (Build.event g.nextId e g').2.pinned = g'.pinned ++ e.findings.map (.about g.nextId) := by
  have hsilent : e.findings = [] → (Build.event g.nextId e g').2.pinned = g'.pinned := by
    intro hnone
    have hfilled := (h.event hstandard hopen hkind e).toExtends
    rw [hnone, List.append_nil] at hfilled
    exact h.toExtends.pinned_eq hfilled (Build.grows_event g.nextId e g').2
  by_cases hnone : e.findings = []
  · rw [hsilent hnone, hnone, List.map_nil, List.append_nil]
  · obtain ⟨type, target⟩ := e
    rcases type with _ | _ | _ | _ | value
    all_goals first | exact absurd rfl hnone | rfl

/-- Steps that the socket refuses are left beside the block. -/
theorem branch_refused (hrefused : s.fit t.kind socket = false) :
    ∃ u, s.tree? = some u ∧ g'.Grown (Build.steps s g').2 u [] [] ∧
      (Build.branch g.nextId socket s g').2 =
        (Build.steps s g').2.pin (.about g'.nextId (.rejectedLink t.kind socket u.kind)) := by
  have hgrammar := h.grammar.trans hstandard
  rw [Steps.fit, s.first?_eq] at hrefused
  rcases branch_cases h.forest hgrammar g.nextId socket s with ⟨htree, -⟩ | ⟨u, htree, hgrown, hrun⟩
  · rw [htree] at hrefused
    cases hrefused
  · rw [htree] at hrefused
    have hrefused : Grammar.standard.accepts t.kind socket u.kind = false := hrefused
    have hbeside := h.beside hgrown
    refine ⟨u, htree, hgrown, ?_⟩
    rw [hrun, link_eq_pin hbeside.segment.kind hgrown.shown.kind
      (by rw [hbeside.grammar, hstandard, hrefused])]

/-- What a branch records is about the first of its blocks. -/
theorem pinned_branch (hopen : t.OpenAt socket) (hs : socket ≠ .next) :
    (Build.branch g.nextId socket s g').2.pinned =
      g'.pinned ++ (s.refusal t.kind socket).map (.about g'.nextId) := by
  cases hfit : s.fit t.kind socket with
  | true =>
      -- No kind of finding is new, so there is no new finding.
      have hnone : s.refusal t.kind socket = [] := by rw [Steps.refusal, if_pos hfit]
      have hfilled := (h.branch hstandard hopen hs s).toExtends
      rw [hnone, List.append_nil] at hfilled
      rw [hnone, List.map_nil, List.append_nil]
      exact h.toExtends.pinned_eq hfilled (Build.grows_branch g.nextId socket s g').2
  | false =>
      obtain ⟨u, htree, -, hrun⟩ := h.branch_refused hstandard hfit
      have hrefusal : s.refusal t.kind socket = [.rejectedLink t.kind socket u.kind] := by
        rw [Steps.refusal, hfit, s.first?_eq, htree]
        rfl
      have hsteps := pinned_steps h.forest (h.grammar.trans hstandard) s
      rw [hrun, hrefusal]
      exact congrArg (· ++ [_]) hsteps

theorem standsAlone_branch {u : Tree} (hu : u ∈ s.detached t.kind socket) :
    (Build.branch g.nextId socket s g').2.StandsAlone g'.nextId (g'.nextId, u) := by
  cases hfit : s.fit t.kind socket with
  | true =>
      rw [Steps.detached, if_pos hfit] at hu
      cases hu
  | false =>
      obtain ⟨u', htree, hgrown, hrun⟩ := h.branch_refused hstandard hfit
      rw [Steps.detached, hfit, htree] at hu
      obtain rfl := List.mem_singleton.mp hu
      obtain ⟨beside, hroots, -⟩ := hgrown.roots
      have hroot : g'.nextId ∈ (Build.steps s g').2.roots :=
        hroots ▸ List.mem_append_right _ List.mem_cons_self
      have halone : (Build.steps s g').2.StandsAlone g'.nextId (g'.nextId, u) :=
        ⟨hroot, hgrown.shown⟩
      rw [hrun]
      exact halone.carry (Nat.le_refl _) (Nat.le_refl _) (fun _ _ _ => rfl) fun _ hid _ => hid

end Built

/-! ## Logic blocks -/

theorem pinned_repeatCount (hg : g.IsForest) (hstandard : g.grammar = .standard) (c : Control) :
    (Build.repeatCount g.nextId c.times (g.insert .repeated)).2.pinned =
      g.pinned ++ (c.countFindings .repeated).map (.about g.nextId) := by
  by_cases hnone : c.countFindings .repeated = []
  · have hcount := (built_repeatCount hg hstandard c).toExtends
    rw [hnone] at hcount
    rw [hnone, List.map_nil, List.append_nil]
    exact (Extends.insert hg .repeated).pinned_eq hcount (Build.grows_repeatCount _ _ _).2
  · -- The count is moved: the finding is recorded, and the field is set behind it.
    unfold Control.countFindings at hnone ⊢
    cases htimes : c.times with
    | none =>
        rw [htimes] at hnone
        exact absurd rfl hnone
    | some n =>
        rw [htimes] at hnone
        have hmoved : clampCount n ≠ n := fun heq => hnone (if_neg (not_not.mpr heq))
        have hkind : ∀ w, (Build.pin w (g.insert .repeated)).2.kind? g.nextId = some .repeated :=
          fun w => (kind?_insert g .repeated g.nextId).trans (if_pos rfl)
        have hvalue : g.grammar.checkField .repeated fieldTimes (.int (clampCount n)) = .ok () :=
          hstandard ▸ checkField_times n
        have hstandard' : (g.insert .repeated).grammar = .standard := hstandard
        dsimp only
        rw [repeatCount_some hstandard', if_pos hmoved, if_pos hmoved, set_eq_modify (hkind _) hvalue,
          pinned_modify]
        rfl

/-- What is found about the count or the event of a logic block is recorded at the block. -/
theorem pinned_equip (hg : g.IsForest) (hstandard : g.grammar = .standard) {kind : BlockKind}
    (hlogic : kind ∈ Grammar.logicKinds) (c : Control) :
    (Build.equip g.nextId kind c (g.insert kind)).2.pinned = g.pinned ++
      (c.countFindings kind ++ ((c.guard? kind).map Event.findings).getD []).map
        (.about g.nextId) := by
  have hevent : ∀ e, kind = .when ∨ kind = .whenOtherwise →
      (Build.event g.nextId e (g.insert kind)).2.pinned =
        g.pinned ++ e.findings.map (.about g.nextId) :=
    fun e hkind => (Built.insert hg kind).pinned_event hstandard (Tree.openAt_nil _ _ _) hkind e
  obtain ⟨type, times, event, otherwise, steps⟩ := c
  cases kind with
  | loop => exact (List.append_nil _).symm
  | repeated =>
      have hcount := pinned_repeatCount hg hstandard ⟨type, times, event, otherwise, steps⟩
      simpa [Control.guard?, Build.equip] using hcount
  | when =>
      cases event with
      | none => exact (List.append_nil _).symm
      | some e => exact hevent e (.inl rfl)
  | whenOtherwise =>
      cases event with
      | none => exact (List.append_nil _).symm
      | some e => exact hevent e (.inr rfl)
  | _ => exact absurd hlogic (by decide)

/-- The logic block of a control, its reports and the chains that are left out. -/
theorem fillLogic_records (hg : g.IsForest) (hstandard : g.grammar = .standard) {c : Control}
    {kind : BlockKind} (hkind : c.kind? = some kind) :
    let filled := (Build.fillLogic g.nextId kind c (g.insert kind)).2
    filled.nextId = g.nextId + c.blockCount ∧ filled.pinned = g.pinned ++ c.reports g.nextId ∧
      ∀ entry ∈ c.leftOut g.nextId, filled.StandsAlone (g.nextId + 1) entry := by
  intro filled
  have hlogic := mem_logicKinds hkind
  have hhead := built_equip hg hstandard hlogic c
  have hbody := built_body hg hstandard hlogic c
  -- The block and its event, the body and the second branch, in this order.
  have hstart : (Build.equip g.nextId kind c (g.insert kind)).2.nextId =
      c.bodyStart g.nextId kind := by
    rw [(Build.grows_equip g.nextId hlogic c _).1, nextId_insert, Control.bodyStart]
  have hsecondStart := (Build.grows_branch g.nextId .body c.steps
    (Build.equip g.nextId kind c (g.insert kind)).2).1
  rw [hstart] at hsecondStart
  have hfilled : filled = _ := Build.fillLogic_eq g.nextId kind c (g.insert kind)
  rw [hfilled]
  refine ⟨?_, ?_, ?_⟩
  · rw [(Build.grows_branch _ _ _ _).1, hsecondStart, Control.blockCount_of_kind hkind,
      Control.bodyStart]
    simp only [Nat.add_assoc]
  · rw [hbody.pinned_branch hstandard (c.openAt_otherwise kind) (by decide), hsecondStart,
      hhead.pinned_branch hstandard (c.openAt_equipped kind (by decide)) (by decide), hstart,
      pinned_equip hg hstandard hlogic, Control.reports_of_kind hkind]
    simp only [List.append_assoc]
    rfl
  · have hgrammar := hbody.grammar.trans hstandard
    have hlo : g.nextId + 1 ≤ c.bodyStart g.nextId kind := Nat.le_add_right _ _
    intro entry hentry
    rw [Control.leftOut_of_kind hkind, List.mem_append] at hentry
    rcases hentry with hentry | hentry
    · obtain ⟨u, hu, rfl⟩ := List.mem_map.mp hentry
      have halone := hhead.standsAlone_branch hstandard hu
      rw [hstart] at halone
      have hkept := halone.branch hbody.forest hgrammar hlo .otherwise (c.second kind)
      exact hkept.widen hlo
    · obtain ⟨u, hu, rfl⟩ := List.mem_map.mp hentry
      have halone := hbody.standsAlone_branch hstandard hu
      rw [hsecondStart] at halone
      exact halone.widen (Nat.le_trans hlo (Nat.le_add_right _ _))

/-! ## Controls -/

/-- The blocks that are named in what is found about a control with this first block: its logic block,
with whatever is behind it, and the chains that are left out. -/
structure Carries (g : Graph) (start : BlockId) (c : Control) : Prop where
  logic : ∀ kind, c.kind? = some kind →
    ∃ behind, g.Shows 0 g.nextId ((c.tree kind).plug .next behind) start
  beside : ∀ entry ∈ c.leftOut start, g.StandsAlone 0 entry

/-- `g'` is `g` with a chain of controls loaded: what is found about them is recorded, and their
blocks are in place. -/
structure Records (g g' : Graph) (cs : List Control) : Prop where
  pinned : g'.pinned =
    g.pinned ++ (Control.numbered g.nextId cs).flatMap fun (start, c) => c.reports start
  carries : ∀ entry ∈ Control.numbered g.nextId cs, g'.Carries entry.1 entry.2

theorem Records.nil (g : Graph) : g.Records g [] where
  pinned := by rw [Control.numbered, List.flatMap_nil, List.append_nil]
  carries entry hentry := by cases hentry

theorem Records.cons {c : Control} {rest : List Control} (h : g'.Records g'' rest)
    (hnext : g'.nextId = g.nextId + c.blockCount)
    (hpinned : g'.pinned = g.pinned ++ c.reports g.nextId) (hfirst : g''.Carries g.nextId c) :
    g.Records g'' (c :: rest) where
  pinned := by
    rw [h.pinned, hpinned, hnext, Control.numbered, List.flatMap_cons, List.append_assoc]
  carries entry hentry := by
    rw [Control.numbered, ← hnext] at hentry
    rcases List.mem_cons.mp hentry with rfl | hentry
    · exact hfirst
    · exact h.carries entry hentry

/-- A finding about an unknown type is recorded at the head of the chain that stands for it. -/
theorem bareChain_records (hg : g.IsForest) (hstandard : g.grammar = .standard) (value : String)
    (c : Control) :
    let chain := (Build.bareChain value c g).2
    chain.nextId = g.nextId + c.steps.blockCount ∧
      chain.pinned =
        g.pinned ++ [⟨c.steps.tree?.map fun _ => g.nextId, .unknownControlType value⟩] ∧
      ∀ t ∈ c.steps.tree?, chain.StandsAlone g.nextId (g.nextId, t) := by
  intro chain
  have hrun : chain =
      (Build.steps c.steps g).2.pin ⟨(Build.steps c.steps g).1.head?, .unknownControlType value⟩ := rfl
  have hpinned := pinned_steps hg hstandard c.steps
  have hhead : (Build.steps c.steps g).1.head? = c.steps.tree?.map fun _ => g.nextId := by
    cases htree : c.steps.tree? with
    | none => rw [steps_of_tree?_none g htree, List.head?_nil, Option.map_none]
    | some t => exact (grown_steps hg hstandard htree).1
  refine ⟨(Build.grows_steps c.steps g).1, ?_, fun t ht => ?_⟩
  · rw [hrun, ← hhead, ← hpinned]
    rfl
  · have hgrown := (grown_steps hg hstandard ht).2
    obtain ⟨beside, hroots, -⟩ := hgrown.roots
    have hroot : g.nextId ∈ (Build.steps c.steps g).2.roots :=
      hroots ▸ List.mem_append_right _ List.mem_cons_self
    have halone : (Build.steps c.steps g).2.StandsAlone g.nextId (g.nextId, t) :=
      ⟨hroot, hgrown.shown⟩
    exact halone.carry (Nat.le_refl _) (Nat.le_refl _) (fun _ _ _ => rfl) fun _ hid _ => hid

/-- The steps of a control without a logic block, and what is found about it. -/
theorem stray_records (hg : g.IsForest) (hstandard : g.grammar = .standard) {c : Control}
    (hkind : c.kind? = none) :
    let strays := (Build.stray c g).2
    strays.nextId = g.nextId + c.blockCount ∧ strays.pinned = g.pinned ++ c.reports g.nextId ∧
      ∀ entry ∈ c.leftOut g.nextId, strays.StandsAlone g.nextId entry := by
  rw [Control.leftOut_of_no_kind hkind, Control.reports_of_no_kind hkind,
    Control.blockCount_of_no_kind hkind, Control.strays, hkind, Build.stray]
  dsimp only
  split
  next => exact ⟨rfl, (List.append_nil _).symm, fun _ hentry => by cases hentry⟩
  next =>
    obtain ⟨hnext, hpinned, halone⟩ := bareChain_records hg hstandard
      ((c.type.map ControlType.text).getD "null") c
    refine ⟨hnext, hpinned, fun entry hentry => ?_⟩
    obtain ⟨t, ht, rfl⟩ := List.mem_map.mp hentry
    exact halone t (Option.mem_toList.mp ht)

variable {cs : List Control} {c : Control} {kind : BlockKind}

theorem carries_stray {touched : Nat → Prop} {ts : List Tree} (hkind : c.kind? = none)
    (halone : ∀ entry ∈ c.leftOut g.nextId, g'.StandsAlone g.nextId entry)
    (hadds : g'.Adds g'' touched ts found) (htouched : ∀ id, touched id → id < g.nextId) :
    g''.Carries g.nextId c where
  logic kind h := by
    rw [hkind] at h
    cases h
  beside entry hentry := by
    obtain ⟨beside, hroots, -⟩ := hadds.roots
    refine (halone entry hentry).carry (Nat.zero_le _) hadds.nextId_le (fun id h1 h2 => ?_)
      fun id hroot _ => hroots ▸ List.mem_append_left _ hroot
    exact hadds.face? id h2 fun hid => Nat.not_lt_of_le h1 (htouched id hid)

theorem carries_logic {g₁ g₂ g₃ : Graph} {behind : Option Tree} {beside : List Tree}
    {found' : List WarningKind} (h : g.Built g₁ (c.tree kind) strays found)
    (hkind : c.kind? = some kind)
    (halone : ∀ entry ∈ c.leftOut g.nextId, g₁.StandsAlone (g.nextId + 1) entry)
    (hnext : g₂.nextId = g₁.nextId)
    (hface : ∀ id : Nat, g.nextId ≤ id → id < g₁.nextId → g₂.face? id = g₁.face? id)
    (hroots : ∀ id ∈ g₁.roots, id ≠ g.nextId → id ∈ g₂.roots)
    (hcont : g₂.Continues g₃ g.nextId behind beside found') : g₃.Carries g.nextId c where
  logic kind' hkind' := by
    obtain rfl := Option.some.inj (hkind.symm.trans hkind')
    have hshown := (h.topped hnext hface hcont).1
    exact ⟨behind, hshown.widen (Nat.zero_le _) (Nat.le_refl _)⟩
  beside entry hentry := by
    obtain ⟨after, hafter, -⟩ := hcont.roots
    refine (halone entry hentry).carry (Nat.zero_le _) (hnext ▸ hcont.nextId_le)
      (fun id h1 h2 => ?_) fun id hroot hid => ?_
    · rw [hcont.face? id (hnext ▸ h2) (Nat.ne_of_lt h1).symm, hface id (Nat.le_of_lt h1) h2]
    · exact hafter ▸ List.mem_append_left _ (hroots id hroot (Nat.ne_of_lt hid).symm)

/-- The chain of controls behind a block. -/
theorem records_continue {hi owner : Nat} {tail previous : Option BlockId}
    (h : g.GoesOn tail previous hi owner t cs) :
    g.Records (Build.controls tail previous cs g).2 cs := by
  induction cs generalizing g hi owner t previous with
  | nil => exact .nil g
  | cons c rest ih =>
      cases hkind : c.kind? with
      | none =>
          obtain ⟨hnext, hpinned, halone⟩ := stray_records h.forest h.standard hkind
          have hcont := controls_continue (h.stray hkind)
          rw [controls_stray hkind]
          exact (ih (h.stray hkind)).cons hnext hpinned
            (carries_stray hkind halone hcont.toAdds fun id hid => hid ▸ h.lt_nextId)
      | some kind =>
          have hnew := built_logic h.forest h.standard (mem_logicKinds hkind) c
          obtain ⟨hnext, hpinned, halone⟩ := fillLogic_records h.forest h.standard hkind
          obtain ⟨hplug, hrun⟩ := h.linked hkind
          have hext := Extends.plug hnew.forest hplug
          -- Plugging the block in makes no block and records nothing.
          have hplugged : (Graph.plug _ owner .next g.nextId).nextId = _ := nextId_relink
            (Build.fillLogic g.nextId kind c (g.insert kind)).2 owner .next g.nextId _ _ _
          have hpinned' : (Graph.plug _ owner .next g.nextId).pinned = _ := pinned_relink
            (Build.fillLogic g.nextId kind c (g.insert kind)).2 owner .next g.nextId _ _ _
          rw [hrun]
          refine (ih (h.logic hkind)).cons (hplugged.trans hnext) (hpinned'.trans hpinned) ?_
          refine carries_logic hnew hkind halone hplugged (fun id h1 h2 => ?_)
            (fun id hroot hne => ?_) (controls_continue (h.logic hkind))
          · exact hext.face? id h2 (Nat.ne_of_lt (Nat.lt_of_lt_of_le h.lt_nextId h1)).symm
          · exact List.mem_filter.mpr ⟨hroot, by simpa using hne⟩

/-- A chain of controls that stands on its own. -/
theorem records_stand {tail : Option BlockId} (h : g.BeginsAnew tail cs) :
    g.Records (Build.controls tail none cs g).2 cs := by
  induction cs generalizing g with
  | nil => exact .nil g
  | cons c rest ih =>
      cases hkind : c.kind? with
      | none =>
          obtain ⟨hnext, hpinned, halone⟩ := stray_records h.forest h.standard hkind
          rw [controls_stray hkind]
          exact (ih (h.stray hkind)).cons hnext hpinned
            (carries_stray hkind halone (controls_stand (h.stray hkind)) nofun)
      | some kind =>
          -- The chain goes on behind the first logic block.
          have hnew := built_logic h.forest h.standard (mem_logicKinds hkind) c
          obtain ⟨hnext, hpinned, halone⟩ := fillLogic_records h.forest h.standard hkind
          rw [h.unlinked hkind]
          exact (records_continue (h.logic hkind)).cons hnext hpinned
            (carries_logic hnew hkind halone rfl (fun _ _ _ => rfl) (fun _ hroot _ => hroot)
              (controls_continue (h.logic hkind)))

/-! ## Programs -/

theorem records_program (hg : g.IsForest) (hstandard : g.grammar = .standard) (p : Program) :
    (Build.steps p.steps g).2.Records (Build.program p g).2 p.controls := by
  unfold Build.program
  rw [Build.bind_apply]
  cases hlead : p.steps.leadTo p.controls with
  | true =>
      obtain ⟨last, mid, t, -, hgoes⟩ := steps_lead hg hstandard hlead
      exact records_continue hgoes
  | false => exact records_stand (steps_refuse hg hstandard hlead)

theorem pinned_placeRoots (layout : Layout) (index : Nat) (roots : List BlockId) (g : Graph) :
    (placeRoots layout index roots g).pinned = g.pinned := by
  induction roots generalizing index g with
  | nil => rfl
  | cons root rest ih => rw [placeRoots, ih, pinned_modify]

/-- Placing roots moves no block in its chain. -/
theorem Carries.placeRoots {start : BlockId} (h : g.Carries start c) (hg : g.IsForest)
    (layout : Layout) (index : Nat) (roots : List BlockId) :
    (placeRoots layout index roots g).Carries start c := by
  obtain ⟨hext, hnext, hroots⟩ := placeRoots_extends hg layout index roots
  refine ⟨fun kind hkind => ?_, fun entry hentry => ?_⟩
  · obtain ⟨behind, hshown⟩ := h.logic kind hkind
    exact ⟨behind, hshown.frame (Nat.le_refl _) hnext.symm.le fun id _ hid => hext.face?_old hid⟩
  · exact (h.beside entry hentry).carry (Nat.le_refl _) hnext.symm.le
      (fun id _ hid => hext.face?_old hid) fun id hroot _ => hroots ▸ hroot

/-- Steps that are found refused have been left out. -/
theorem exists_detached {s : Steps} {owner : BlockKind} {socket : SocketName} {w : WarningKind}
    (hw : w ∈ s.refusal owner socket) : ∃ u, u ∈ s.detached owner socket := by
  unfold Steps.refusal at hw
  unfold Steps.detached
  split at hw
  next => cases hw
  next hfit =>
    rw [if_neg hfit]
    rw [s.first?_eq] at hw
    cases htree : s.tree? with
    | none =>
        rw [htree] at hw
        cases hw
    | some u => exact ⟨u, List.mem_singleton_self u⟩

/-- The blocks that are named in what is found about a control are there. -/
theorem Carries.live {start : BlockId} (h : g.Carries start c) {w : Warning}
    (hw : w ∈ c.reports start) {id : BlockId} (hid : id ∈ w.block) : g.Live id := by
  have halone : ∀ entry ∈ c.leftOut start, g.Live entry.1 :=
    fun entry hentry => (h.beside entry hentry).2.live
  cases hkind : c.kind? with
  | none =>
      rw [Control.leftOut_of_no_kind hkind, Control.strays, hkind] at halone
      rw [Control.reports_of_no_kind hkind] at hw
      split at hw
      next => cases hw
      next hkept =>
        obtain rfl := List.mem_singleton.mp hw
        obtain ⟨t, ht, rfl⟩ := Option.map_eq_some_iff.mp hid
        refine halone (start, t) (List.mem_map_of_mem ?_)
        dsimp only
        rw [if_neg hkept]
        exact Option.mem_toList.mpr ht
  | some kind =>
      obtain ⟨behind, hshown⟩ := h.logic kind hkind
      rw [Control.leftOut_of_kind hkind] at halone
      rw [Control.reports_of_kind hkind, List.mem_append, List.mem_append] at hw
      -- It is about the logic block itself or about the head of a chain it refused.
      rcases hw with (hw | hw) | hw
      · obtain ⟨_, -, rfl⟩ := List.mem_map.mp hw
        exact Option.some.inj hid ▸ hshown.live
      · obtain ⟨_, hrefused, rfl⟩ := List.mem_map.mp hw
        obtain ⟨u, hu⟩ := exists_detached hrefused
        exact Option.some.inj hid ▸
          halone (_, u) (List.mem_append_left _ (List.mem_map_of_mem hu))
      · obtain ⟨_, hrefused, rfl⟩ := List.mem_map.mp hw
        obtain ⟨u, hu⟩ := exists_detached hrefused
        exact Option.some.inj hid ▸
          halone (_, u) (List.mem_append_right _ (List.mem_map_of_mem hu))

/-- What is recorded while a program is loaded is what is found about its controls, in their order
and nothing else, and the blocks that are named stand for the controls that they are named for. -/
theorem load_findings_are_exact (layout : Layout) (p : Program) :
    let g := ofProgram .standard layout p
    g.pinned = p.reports ∧ (∀ entry ∈ p.numbered, g.Carries entry.1 entry.2) ∧
      ∀ w ∈ g.pinned, ∀ id ∈ w.block, g.Live id := by
  intro g
  have hempty := isForest_empty .standard
  have hbuilt := (adds_program hempty rfl p).forest
  have hrecords := records_program hempty rfl p
  have hnext : (Build.steps p.steps (empty .standard)).2.nextId = p.steps.blockCount :=
    (Build.grows_steps p.steps _).1.trans (Nat.zero_add _)
  have hpinned : g.pinned = p.reports := by
    have hplaced : g.pinned = (Build.program p (empty .standard)).2.pinned := pinned_placeRoots ..
    rw [hplaced, hrecords.pinned, pinned_steps hempty rfl, hnext]
    rfl
  have hcarries : ∀ entry ∈ p.numbered, g.Carries entry.1 entry.2 := fun entry hentry =>
    (hrecords.carries entry (hnext.symm ▸ hentry)).placeRoots hbuilt layout 0 _
  refine ⟨hpinned, hcarries, fun w hw id hid => ?_⟩
  rw [hpinned] at hw
  obtain ⟨entry, hentry, hw⟩ := List.mem_flatMap.mp hw
  exact (hcarries entry hentry).live hw hid

/-- The repetition is block 0, the step that it refuses block 1 with its reference behind it, and the
step of the control of unknown type block 3; the control in which nothing is set is passed over. -/
example : (ofProgram .standard .standard ⟨.empty,
    [⟨some .repeated, some 150, none, none, ⟨none, some ⟨some "wash", none⟩, none⟩⟩,
      ⟨none, none, none, none, .empty⟩,
      ⟨some (.other "UNTIL"), none, none, none, ⟨some .blank, none, none⟩⟩]⟩).pinned =
    [.about 0 (.fieldClamped "times" 150 99), .about 1 (.rejectedLink .repeated .body .processing),
      .about 3 (.unknownControlType "UNTIL")] := by decide +kernel

end Graph

end TaskDiagram
