import TaskDiagram.Proofs.Graph.Correspondence
import TaskDiagram.Proofs.Graph.Fields
import TaskDiagram.Proofs.Graph.Saving
import TaskDiagram.Proofs.Workspace.Reloading

/-! # Diagrams out of their own workspaces

A diagram that edits lead to is loaded from its workspace without a finding, and the loaded diagram
is the same up to the ids of its blocks.
-/

namespace TaskDiagram

namespace Graph

variable {g g' : Graph} {lo hi : Nat}

/-! ## The trees of edited diagrams fit -/

theorem ShowsInputs.map_fst {inputs : List (SocketName × Tree)}
    {links : List (SocketName × BlockId)} (h : g.ShowsInputs lo hi inputs links) :
    inputs.map (·.1) = links.map (·.1) := by
  induction inputs generalizing links with
  | nil =>
      cases h
      rfl
  | cons entry rest ih =>
      cases h with
      | cons _ hrest => rw [List.map_cons, List.map_cons, ih hrest]

/-- Where every field is admitted, every tree fits: its links have been accepted. -/
theorem IsForest.fits_of_shows (hg : g.IsForest) (hfields : g.FieldsAdmitted) {t : Tree} {id : Nat}
    (h : g.Shows lo hi t id) : t.Fits g.grammar := by
  have hlive := h.live
  induction id, hlive using hg.below_induction generalizing t with
  | step id hlive ih =>
      cases h with
      | @node kind fields inputs _ links _ _ hface hinputs =>
          obtain ⟨b, hb, hshown⟩ := Option.map_eq_some_iff.mp hface
          cases hshown
          have hkind : g.kind? id = some b.kind := by rw [kind?, hb]; rfl
          have hchild : ∀ entry ∈ b.inputs.toList, g.child? id entry.1 = some entry.2 := by
            intro entry hentry
            rw [child?_eq_face?, hface]
            exact Sockets.mem_toList.mp hentry
          -- The sockets come in their order, so no later input hangs in a socket met before.
          have hfit : ∀ (inputs : List (SocketName × Tree)) (links : List (SocketName × BlockId)),
              g.ShowsInputs lo hi inputs links →
              (∀ entry ∈ links, g.child? id entry.1 = some entry.2) →
              (links.Pairwise fun a b => a.1.index < b.1.index) →
              Tree.FitInputs g.grammar b.kind inputs := by
            intro inputs
            induction inputs with
            | nil => exact fun _ _ _ _ => trivial
            | cons input inputs ihInputs =>
                intro links hinputs hlinks hincreasing
                cases hinputs with
                | @cons socket tree child _ links hshown hrest =>
                    have hc := hlinks _ List.mem_cons_self
                    obtain ⟨p, c, hp, hc', haccepts⟩ := hg.accepted hc
                    obtain rfl := Option.some.inj (hkind.symm.trans hp)
                    obtain rfl := Option.some.inj (hshown.kind.symm.trans hc')
                    obtain ⟨hfirst, hincreasing⟩ := List.pairwise_cons.mp hincreasing
                    refine ⟨haccepts, ih socket child hc hshown, ?_, ihInputs links hrest
                      (fun entry hentry => hlinks entry (List.mem_cons_of_mem _ hentry)) hincreasing⟩
                    intro entry hentry
                    have hmem : entry.1 ∈ links.map (·.1) := by
                      rw [← hrest.map_fst]
                      exact List.mem_map_of_mem hentry
                    obtain ⟨link, hlink, heq⟩ := List.mem_map.mp hmem
                    exact heq ▸ hfirst link hlink
          exact ⟨hfields id b hb, hfit _ _ hinputs hchild b.inputs.toList_increasing⟩

theorem IsForest.fits_of_mem_forest (hg : g.IsForest) (hfields : g.FieldsAdmitted) {t : Tree}
    (ht : t ∈ g.forest) : t.Fits g.grammar := by
  obtain ⟨root, -, hroot⟩ := List.mem_filterMap.mp ht
  have hlive : g.Live root := by
    cases hb : g.block? root with
    | some b => simp [Live, hb]
    | none => cases hn : g.nextId <;> simp [hn, tree?, hb] at hroot
  obtain ⟨u, hu⟩ := hg.exists_shows hlive
  rw [hg.tree?_eq hu] at hroot
  cases hroot
  exact hg.fits_of_shows hfields hu

/-! ## The same up to ids -/

/-- One block for each of the other diagram, with the same kind, fields and links, and the roots in
the same order. -/
structure Renaming (g g' : Graph) (f : BlockId → BlockId) : Prop where
  bijOn : Set.BijOn f {id | g.Live id} {id | g'.Live id}
  kind : ∀ id, g.Live id → g'.kind? (f id) = g.kind? id
  fields : ∀ id, g.Live id →
    (g'.block? (f id)).map (·.fields) = (g.block? id).map (·.fields)
  links : ∀ id, g.Live id → ∀ socket, g'.child? (f id) socket = (g.child? id socket).map f
  roots : g'.roots = g.roots.map f

/-- Diagrams with the same trees in the same order are the same up to ids. -/
theorem exists_renaming (hg : g.IsForest) (hg' : g'.IsForest) (h : g'.forest = g.forest) :
    ∃ f, g.Renaming g' f := by
  have hshows := hg.forall₂_forest
  have hshows' := h ▸ hg'.forall₂_forest
  have hcommon : Descends g g' (Relation.Comp (flip (g.Shows 0 g.nextId)) (g'.Shows 0 g'.nextId)) :=
    descends_of_tree Shows.live Shows.live Shows.child? Shows.child?
  have hpaired := forall₂_comp hshows.flip hshows'
  obtain ⟨f, hf, hsame, hroots⟩ := exists_corresponds hg hg' hcommon (.refl _) (.refl _) hpaired
  refine ⟨f, hf.bijOn, fun id hid => ?_, fun id hid => ?_, hf.links, hroots⟩
  · obtain ⟨t, ht, ht'⟩ := hsame id hid
    rw [Shows.kind ht, ht'.kind]
  · obtain ⟨t, ht, ht'⟩ := hsame id hid
    rw [Shows.fields ht, ht'.fields]

/-! ## Reloading -/

/-- The diagram is loaded from a workspace without a finding, as it is up to ids; roots that have
coordinates get what a function makes of these, and the program is the same. -/
structure ReloadsFrom (g : Graph) (layout : Layout) (w : Workspace) (f : Float → Float) : Prop where
  pinned : (ofWorkspace g.grammar layout w).pinned = []
  renamed : ∃ rename, g.Renaming (ofWorkspace g.grammar layout w) rename ∧
    ∀ root ∈ g.roots, ∀ p, g.position? root = some p →
      (ofWorkspace g.grammar layout w).position? (rename root) = some ⟨f p.x, f p.y⟩
  toProgram : (ofWorkspace g.grammar layout w).toProgram = g.toProgram

/-- Roots that have coordinates have nodes with these. -/
theorem IsForest.position?_of_standsAt (hg : g.IsForest) (f : Float → Float)
    {rename : BlockId → BlockId} {roots : List BlockId} (hlive : ∀ root ∈ roots, g.Live root)
    (h : List.Forall₂ g'.StandsAt ((roots.filterMap g.rootNode?).map (Node.redrawn f))
      (roots.map rename)) :
    ∀ root ∈ roots, ∀ p, g.position? root = some p →
      g'.position? (rename root) = some ⟨f p.x, f p.y⟩ := by
  induction roots with
  | nil => exact fun _ hroot => nomatch hroot
  | cons first rest ih =>
      obtain ⟨hfirst, hrest⟩ := List.forall_mem_cons.mp hlive
      obtain ⟨t, ht⟩ := hg.exists_shows hfirst
      have htree := g.map_tree_rootNode? first
      rw [hg.tree?_eq ht] at htree
      obtain ⟨node, hnode, -⟩ := Option.map_eq_some_iff.mp htree
      rw [List.filterMap_cons, hnode, List.map_cons, List.map_cons] at h
      obtain ⟨hstands, h⟩ := List.forall₂_cons.mp h
      rw [List.forall_mem_cons]
      refine ⟨fun p hp => ?_, ih hrest h⟩
      have hplace : (g.block? first).bind (·.position) = some p := hp
      obtain ⟨bare, -, hbare⟩ := Option.map_eq_some_iff.mp hnode
      obtain ⟨kind, fields, x, y, next, inputs⟩ := bare
      rw [hplace] at hbare
      cases hbare
      exact hstands.position (f p.x) (f p.y) rfl rfl

/-- Coordinates apart, a diagram is loaded from its workspace as it is. -/
theorem IsForest.reloadsFrom_redrawn (hg : g.IsForest) (hfields : g.FieldsAdmitted)
    (layout : Layout) (f : Float → Float) :
    g.ReloadsFrom layout (g.toWorkspace.redrawn f) f := by
  have hforest : (g.toWorkspace.redrawn f).blocks.map Node.tree = g.forest :=
    (g.toWorkspace.map_tree_redrawn f).trans g.map_tree_toWorkspace
  have hplanted := planted_ofWorkspace g.grammar layout (g.toWorkspace.redrawn f)
    fun node hnode => hg.fits_of_mem_forest hfields (hforest ▸ List.mem_map_of_mem hnode)
  obtain ⟨ids, hroots, hshows, hstand⟩ := hplanted.roots
  obtain rfl : (ofWorkspace g.grammar layout (g.toWorkspace.redrawn f)).roots = ids := hroots
  have hsame : (ofWorkspace g.grammar layout (g.toWorkspace.redrawn f)).forest = g.forest :=
    (hplanted.forest.forest_eq hshows).trans hforest
  obtain ⟨rename, hrename⟩ := exists_renaming hg hplanted.forest hsame
  refine ⟨?_, ⟨rename, hrename, ?_⟩, ?_⟩
  · exact List.map_eq_nil_iff.mp hplanted.pinned
  · exact hg.position?_of_standsAt f (fun root hroot => (hg.mem_roots.mp hroot).1)
      (hrename.roots ▸ hstand)
  · rw [hg.toProgram_eq, hplanted.forest.toProgram_eq, hsame, hplanted.grammar]
    rfl

/-- A diagram is loaded from its workspace as it is. -/
theorem IsForest.reloadsFrom_toWorkspace (hg : g.IsForest) (hfields : g.FieldsAdmitted)
    (layout : Layout) : g.ReloadsFrom layout g.toWorkspace id := by
  have hreloads := hg.reloadsFrom_redrawn hfields layout id
  rwa [Workspace.redrawn_id] at hreloads

end Graph

end TaskDiagram
