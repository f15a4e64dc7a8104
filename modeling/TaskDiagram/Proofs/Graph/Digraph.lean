import TaskDiagram.Grammar.Standard
import TaskDiagram.Graph.Digraph
import TaskDiagram.Proofs.Graph.Edits
import TaskDiagram.Proofs.Graph.EqualForests

/-! # Isomorphic digraphs and equal forests

A search for a bijection of nodes that keeps labels and edges does not know that it is given forests
of blocks with named sockets. It finds one all the same exactly when the roots of the two diagrams
can be paired off with what is under them equal, for in a forest the way from a root to a block is
told by sockets.
-/

namespace TaskDiagram

instance : Fintype SocketName where
  elems := ⟨SocketName.all, by decide⟩
  complete socket := by cases socket <;> decide

namespace Digraph

/-- A bijection of nodes keeps labels and, in both directions, edges with their sockets. -/
def Isomorphic (x y : Digraph) : Prop :=
  ∃ f : Fin x.size ≃ Fin y.size, (∀ i, (x.node i).same (y.node (f i)) = true) ∧
    ∀ i socket j, ⟨i, socket, j⟩ ∈ x.edges ↔ ⟨f i, socket, f j⟩ ∈ y.edges

instance (x y : Digraph) : Decidable (x.Isomorphic y) :=
  inferInstanceAs (Decidable (∃ _ : Fin x.size ≃ Fin y.size, _ ∧ _))

/-- From one node to another there is at most one edge. -/
def Simple (x : Digraph) : Prop :=
  x.edges.Pairwise fun e e' => ¬ (e.source = e'.source ∧ e.target = e'.target)

/-- What is asked of a search: on digraphs without parallel edges it finds out whether they are
isomorphic. -/
def Decides (matching : Digraph → Digraph → Bool) : Prop :=
  ∀ x y : Digraph, x.Simple → y.Simple → (matching x y = true ↔ x.Isomorphic y)

/-- The search through all bijections. -/
def search (x y : Digraph) : Bool := decide (x.Isomorphic y)

theorem decides_search : Decides search := fun _ _ _ _ => decide_eq_true_iff

end Digraph

namespace Graph

variable {g g' : Graph} {id : BlockId} {socket : SocketName}

/-! ## Nodes and edges -/

/-- The block that is the node with a number. -/
def idAt (g : Graph) (i : Fin g.blocks.length) : BlockId := (g.blocks.get i).1

theorem block?_idAt (g : Graph) (i : Fin g.blocks.length) :
    g.block? (g.idAt i) = some (g.blocks.get i).2 :=
  mem_blocks.mp (List.get_mem g.blocks i)

theorem live_idAt (g : Graph) (i : Fin g.blocks.length) : g.Live (g.idAt i) := by
  rw [Live, block?_idAt]
  rfl

/-- Different numbers are those of different blocks. -/
theorem idAt_injective (g : Graph) : Function.Injective g.idAt := by
  intro i j h
  have hblock := (g.block?_idAt i).symm.trans (h ▸ g.block?_idAt j)
  exact List.nodup_iff_injective_get.mp g.blocks_nodup (Prod.ext h (Option.some.inj hblock))

/-- Every block that is there has a number. -/
theorem exists_idAt (hid : g.Live id) : ∃ i, g.idAt i = id := by
  obtain ⟨b, hb⟩ := Option.isSome_iff_exists.mp hid
  obtain ⟨i, hi⟩ := List.get_of_mem (mem_blocks.mpr hb)
  exact ⟨i, congrArg Prod.fst hi⟩

variable {i j : Fin g.blocks.length}

theorem sameLabel_idAt {j : Fin g'.blocks.length} : g.SameLabel g' (g.idAt i) (g'.idAt j) ↔
    (g.digraph.node i).same (g'.digraph.node j) = true := by
  rw [NodeLabel.same, Bool.and_eq_true, beq_iff_eq]
  simp only [SameLabel, block?_idAt, Option.some.injEq, exists_eq_left', exists_and_left]
  rfl

/-- A block is looked up under the number it has. -/
theorem number?_eq_some_iff : number? g.blocks id = some i ↔ g.idAt i = id := by
  rw [number?, List.findFinIdx?_eq_some_iff]
  constructor
  · exact fun ⟨hfound, _⟩ => beq_iff_eq.mp hfound
  · refine fun h => ⟨beq_iff_eq.mpr h, fun j hj hfound => ?_⟩
    have hsame : g.idAt ⟨j, _⟩ = g.idAt i := (beq_iff_eq.mp hfound).trans h.symm
    exact (Nat.ne_of_lt hj) (congrArg Fin.val (g.idAt_injective hsame))

theorem source_of_mem_edgesFrom {e : Edge g.blocks.length} (he : e ∈ edgesFrom g.blocks i) :
    e.source = i := by
  obtain ⟨entry, -, hmap⟩ := List.mem_filterMap.mp he
  obtain ⟨target, -, rfl⟩ := Option.map_eq_some_iff.mp hmap
  rfl

/-- The edges from a node are the links of its block. -/
theorem mem_edgesFrom :
    ⟨i, socket, j⟩ ∈ edgesFrom g.blocks i ↔ g.child? (g.idAt i) socket = some (g.idAt j) := by
  rw [child?, block?_idAt, Option.bind_some]
  simp only [edgesFrom, List.mem_filterMap, Prod.exists, Sockets.mem_toList,
    Option.map_eq_some_iff, Edge.mk.injEq, true_and]
  constructor
  · rintro ⟨_, child, hchild, _, hnumber, rfl, rfl⟩
    rw [number?_eq_some_iff.mp hnumber]
    exact hchild
  · intro hchild
    exact ⟨socket, g.idAt j, hchild, j, number?_eq_some_iff.mpr rfl, rfl, rfl⟩

/-- The edges are the links between blocks, with their sockets. -/
theorem mem_edges : ⟨i, socket, j⟩ ∈ g.digraph.edges ↔
    g.child? (g.idAt i) socket = some (g.idAt j) := by
  rw [← mem_edgesFrom]
  refine List.mem_flatMap.trans ⟨fun ⟨source, _, he⟩ => ?_, fun he => ⟨i, List.mem_finRange i, he⟩⟩
  obtain rfl : i = source := source_of_mem_edgesFrom he
  exact he

theorem edgesFrom_nodup : (edgesFrom g.blocks i).Nodup := by
  refine (Sockets.toList_nodup _).filterMap ?_
  rintro ⟨socket, child⟩ ⟨socket', child'⟩ edge hedge hedge'
  obtain ⟨target, hnumber, rfl⟩ := Option.map_eq_some_iff.mp hedge
  obtain ⟨target', hnumber', heq⟩ := Option.map_eq_some_iff.mp hedge'
  obtain ⟨-, rfl, rfl⟩ := Edge.mk.inj heq
  rw [← number?_eq_some_iff.mp hnumber, ← number?_eq_some_iff.mp hnumber']

/-- No edge is listed twice. -/
theorem edges_nodup (g : Graph) : g.digraph.edges.Nodup := by
  refine List.nodup_flatMap.mpr ⟨fun i _ => edgesFrom_nodup, ?_⟩
  refine (List.nodup_finRange _).imp fun {i j} hne edge hedge hedge' => hne ?_
  exact (source_of_mem_edgesFrom hedge).symm.trans (source_of_mem_edgesFrom hedge')

/-- A block is plugged in at one place, so no edges are parallel. -/
theorem IsForest.simple (hg : g.IsForest) : g.digraph.Simple := by
  refine g.edges_nodup.imp_of_mem fun {e e'} he he' hne hends => hne ?_
  obtain ⟨i, socket, j⟩ := e
  obtain ⟨i', socket', j'⟩ := e'
  obtain ⟨rfl, rfl⟩ : i = i' ∧ j = j' := hends
  have hplace := hg.mirror.mpr (mem_edges.mp he)
  have hplace' := hg.mirror.mpr (mem_edges.mp he')
  obtain ⟨-, rfl⟩ := Prod.mk.inj (Option.some.inj (hplace.symm.trans hplace'))
  rfl

/-! ## Isomorphisms and correspondences -/

/-- An isomorphism of digraphs is a bijection of numbers that keeps labels and links. -/
theorem isomorphic_iff_exists_equiv : g.digraph.Isomorphic g'.digraph ↔
    ∃ e : Fin g.blocks.length ≃ Fin g'.blocks.length,
      (∀ i, g.SameLabel g' (g.idAt i) (g'.idAt (e i))) ∧
      ∀ i socket j, g.child? (g.idAt i) socket = some (g.idAt j) ↔
        g'.child? (g'.idAt (e i)) socket = some (g'.idAt (e j)) := by
  constructor
  · rintro ⟨e, hlabel, hedges⟩
    exact ⟨e, fun i => sameLabel_idAt.mpr (hlabel i), fun i socket j =>
      mem_edges.symm.trans ((hedges i socket j).trans mem_edges)⟩
  · rintro ⟨e, hlabel, hlinks⟩
    exact ⟨e, fun i => sameLabel_idAt.mp (hlabel i), fun i socket j =>
      mem_edges.trans ((hlinks i socket j).trans mem_edges.symm)⟩

/-- A bijection of numbers is one of the blocks that have them. -/
theorem IsForest.exists_corresponds_of_equiv (hg : g.IsForest) (hg' : g'.IsForest)
    (e : Fin g.blocks.length ≃ Fin g'.blocks.length)
    (hlinks : ∀ i socket j, g.child? (g.idAt i) socket = some (g.idAt j) ↔
      g'.child? (g'.idAt (e i)) socket = some (g'.idAt (e j))) :
    ∃ f, g.Corresponds g' f ∧ ∀ i, f (g.idAt i) = g'.idAt (e i) := by
  -- Where no block is, the function does not matter.
  let f : BlockId → BlockId := Function.extend g.idAt (g'.idAt ∘ e) id
  have hf : ∀ i, f (g.idAt i) = g'.idAt (e i) := g.idAt_injective.extend_apply _ _
  refine ⟨f, ⟨⟨fun id hid => ?_, fun id hid other hother heq => ?_, fun id' hid' => ?_⟩,
    fun id hid socket => ?_⟩, hf⟩
  · obtain ⟨i, rfl⟩ := exists_idAt hid
    exact hf i ▸ g'.live_idAt (e i)
  · obtain ⟨i, rfl⟩ := exists_idAt hid
    obtain ⟨j, rfl⟩ := exists_idAt hother
    rw [hf, hf] at heq
    exact congrArg g.idAt (e.injective (g'.idAt_injective heq))
  · obtain ⟨j, rfl⟩ := exists_idAt hid'
    exact ⟨g.idAt (e.symm j), g.live_idAt _, by rw [hf, e.apply_symm_apply]⟩
  · obtain ⟨i, rfl⟩ := exists_idAt hid
    rw [hf]
    refine Option.ext fun c' => ⟨fun hc' => ?_, fun hc' => ?_⟩
    · obtain ⟨j', rfl⟩ := exists_idAt (hg'.live_child hc')
      obtain ⟨j, rfl⟩ := e.surjective j'
      rw [(hlinks i socket j).mpr hc', Option.map_some, hf]
    · obtain ⟨c, hc, rfl⟩ := Option.map_eq_some_iff.mp hc'
      obtain ⟨j, rfl⟩ := exists_idAt (hg.live_child hc)
      rw [hf]
      exact (hlinks i socket j).mp hc

/-- A bijection of blocks is one of their numbers. -/
theorem Corresponds.exists_equiv {f : BlockId → BlockId} (h : g.Corresponds g' f)
    (hg : g.IsForest) : ∃ e : Fin g.blocks.length ≃ Fin g'.blocks.length,
      (∀ i, g'.idAt (e i) = f (g.idAt i)) ∧
      ∀ i socket j, g.child? (g.idAt i) socket = some (g.idAt j) ↔
        g'.child? (g'.idAt (e i)) socket = some (g'.idAt (e j)) := by
  have hnumber : ∀ i, ∃ j, g'.idAt j = f (g.idAt i) := fun i =>
    exists_idAt (h.bijOn.mapsTo (g.live_idAt i))
  choose e he using hnumber
  have hbij : Function.Bijective e := by
    constructor
    · intro i j heq
      have hsame : f (g.idAt i) = f (g.idAt j) := by rw [← he, ← he, heq]
      exact g.idAt_injective (h.bijOn.injOn (g.live_idAt i) (g.live_idAt j) hsame)
    · intro j
      obtain ⟨id, hid, hid'⟩ := h.bijOn.surjOn (g'.live_idAt j)
      obtain ⟨i, rfl⟩ := exists_idAt hid
      exact ⟨i, g'.idAt_injective ((he i).trans hid')⟩
  refine ⟨.ofBijective e hbij, he, fun i socket j => ?_⟩
  rw [Equiv.ofBijective_apply, Equiv.ofBijective_apply, he, he, h.links _ (g.live_idAt i),
    Option.map_eq_some_iff]
  refine ⟨fun hc => ⟨_, hc, rfl⟩, fun ⟨c, hc, heq⟩ => ?_⟩
  rwa [← h.bijOn.injOn (hg.live_child hc) (g.live_idAt j) heq]

/-- Isomorphic digraphs are equal forests. -/
theorem IsForest.isomorphic_iff (hg : g.IsForest) (hg' : g'.IsForest) :
    g.digraph.Isomorphic g'.digraph ↔ g.SameForests g' := by
  rw [isomorphic_iff_exists_equiv, hg.sameForests_iff hg']
  constructor
  · rintro ⟨e, hlabel, hlinks⟩
    obtain ⟨f, hf, hidAt⟩ := hg.exists_corresponds_of_equiv hg' e hlinks
    refine ⟨f, hf, fun id hid => ?_⟩
    obtain ⟨i, rfl⟩ := exists_idAt hid
    exact hidAt i ▸ hlabel i
  · rintro ⟨f, hf, hlabel⟩
    obtain ⟨e, he, hlinks⟩ := hf.exists_equiv hg
    exact ⟨e, fun i => (he i).symm ▸ hlabel _ (g.live_idAt i), hlinks⟩

/-! ## The verdict of a search -/

variable {matching : Digraph → Digraph → Bool}

/-- Any search that decides isomorphism tells whether two diagrams hold equal forests. -/
theorem IsForest.isIsomorphicBy_iff (hmatching : Digraph.Decides matching) (hg : g.IsForest)
    (hg' : g'.IsForest) : g.isIsomorphicBy matching g' = true ↔ g.SameForests g' := by
  rw [isIsomorphicBy, hmatching _ _ hg.simple hg'.simple, hg.isomorphic_iff hg']

/-- A diagram may take the place of one with the same blocks under other numbers. -/
theorem Renumbers.isIsomorphicBy_eq {k : Graph} {f : BlockId → BlockId}
    (hmatching : Digraph.Decides matching) (h : g.Renumbers g' f) (hg : g.IsForest)
    (hg' : g'.IsForest) (hk : k.IsForest) :
    g'.isIsomorphicBy matching k = g.isIsomorphicBy matching k ∧
      k.isIsomorphicBy matching g' = k.isIsomorphicBy matching g := by
  constructor
  · rw [Bool.eq_iff_iff, hg'.isIsomorphicBy_iff hmatching hk, hg.isIsomorphicBy_iff hmatching hk,
      h.sameForests_iff hg hg' hk]
  · rw [Bool.eq_iff_iff, hk.isIsomorphicBy_iff hmatching hg', hk.isIsomorphicBy_iff hmatching hg,
      h.sameForests_iff_right hg hg' hk]

/-- A search decides whether two diagrams that edits lead to hold equal forests, and the comparison
of their trees agrees with it. So neither ids nor coordinates, recorded findings or the order of
roots matter: a diagram with the same blocks under other numbers may take the place of either. -/
theorem isomorphism_is_equality_of_forests (matching : Digraph → Digraph → Bool)
    (hmatching : Digraph.Decides matching) (grammar grammar' : Grammar)
    (edits edits' : List GraphEdit) :
    let a := (empty grammar).run edits
    let b := (empty grammar').run edits'
    (a.isIsomorphicBy matching b = true ↔ a.SameForests b) ∧
      a.isIsomorphic b = a.isIsomorphicBy matching b ∧
      ∀ (grammar'' : Grammar) (edits'' : List GraphEdit) (f : BlockId → BlockId),
        let a' := (empty grammar'').run edits''
        a.Renumbers a' f →
          a'.isIsomorphicBy matching b = a.isIsomorphicBy matching b ∧
            b.isIsomorphicBy matching a' = b.isIsomorphicBy matching a := by
  intro a b
  have ha : a.IsForest := (isForest_empty grammar).run edits
  have hb : b.IsForest := (isForest_empty grammar').run edits'
  refine ⟨ha.isIsomorphicBy_iff hmatching hb, ?_, ?_⟩
  · rw [Bool.eq_iff_iff, ha.isIsomorphicBy_iff hmatching hb, ha.isIsomorphic_iff hb]
  · intro grammar'' edits'' f a' hsame
    have ha' : a'.IsForest := (isForest_empty grammar'').run edits''
    exact hsame.isIsomorphicBy_eq hmatching ha ha' hb

/-- A pick of an object and a place behind it, entered from the front. -/
def pickAndPlace (object : String) : List GraphEdit :=
  [.insert .pick, .insert .objectRef, .insert .place, .setField 1 fieldName (.text object),
    .connect 0 .object 1, .connect 0 .next 2]

/-- The same, entered from the back. -/
def placeAndPick (object : String) : List GraphEdit :=
  [.insert .place, .insert .objectRef, .insert .pick, .setField 1 fieldName (.text object),
    .connect 2 .next 0, .connect 2 .object 1]

/-- The search through all bijections ignores the order in which blocks are entered, and does not
ignore fields. -/
theorem order_is_ignored_and_fields_are_not :
    let cup := (empty .standard).run (pickAndPlace "cup")
    let cupFromBack := (empty .standard).run (placeAndPick "cup")
    let bolt := (empty .standard).run (pickAndPlace "bolt")
    Digraph.Decides Digraph.search ∧ cup.isIsomorphicBy Digraph.search cupFromBack = true ∧
      cup.SameForests cupFromBack ∧ cup.isIsomorphicBy Digraph.search bolt = false ∧
      ¬ cup.SameForests bolt := by
  intro cup cupFromBack bolt
  obtain ⟨hcup, hsame, -⟩ := isomorphism_is_equality_of_forests Digraph.search
    Digraph.decides_search .standard .standard (pickAndPlace "cup") (placeAndPick "cup")
  obtain ⟨hbolt, hdiffers, -⟩ := isomorphism_is_equality_of_forests Digraph.search
    Digraph.decides_search .standard .standard (pickAndPlace "cup") (pickAndPlace "bolt")
  have hfound : cup.isIsomorphicBy Digraph.search cupFromBack = true :=
    hsame.symm.trans (by decide)
  have hnone : cup.isIsomorphicBy Digraph.search bolt = false := hdiffers.symm.trans (by decide)
  exact ⟨Digraph.decides_search, hfound, hcup.mp hfound, hnone,
    fun h => Bool.false_ne_true (hnone.symm.trans (hbolt.mpr h))⟩

end Graph

end TaskDiagram
