import TaskDiagram.Proofs.Graph.Correspondence
import TaskDiagram.Proofs.Graph.Pairing

/-! # Equal forests

What is under a block equals what is under a block of another diagram when the blocks have the same
kind and equal fields, and the same sockets are filled, each with what is equal again. The roots of
two diagrams can be paired off in that way exactly when their blocks correspond and corresponding
ones have the same kind and equal fields. The trees under the roots are then the same up to their
order, and it does not matter how blocks are numbered.
-/

namespace TaskDiagram

namespace Tree

/-- Trees are the same when their top blocks are and the same is plugged in. -/
theorem same_iff {t u : Tree} : t.same u = true ↔
    t.kind = u.kind ∧ t.fields.same u.fields = true ∧ sameList t.inputs u.inputs = true := by
  obtain ⟨kind, fields, inputs⟩ := t
  obtain ⟨kind', fields', inputs'⟩ := u
  exact same_node

/-- What is in a socket of one tree is the same as what is in that socket of the other. -/
theorem same_child? {t u : Tree} (h : t.same u = true) (socket : SocketName) :
    Option.Rel (fun t u => t.same u = true) (t.child? socket) (u.child? socket) := by
  have hinputs : ∀ left right : List (SocketName × Tree), sameList left right = true →
      Option.Rel (fun t u => t.same u = true) ((left.find? (·.1 == socket)).map (·.2))
        ((right.find? (·.1 == socket)).map (·.2)) := by
    intro left
    induction left with
    | nil =>
        intro right hright
        cases right with
        | nil => exact .none
        | cons => simp [sameList] at hright
    | cons entry left ih =>
        intro right hright
        obtain ⟨place, v⟩ := entry
        cases right with
        | nil => simp [sameList] at hright
        | cons entry' right =>
            obtain ⟨place', w⟩ := entry'
            obtain ⟨rfl, hsame, hrest⟩ := sameList_cons.mp hright
            by_cases hplace : place = socket
            · simpa [hplace] using Option.Rel.some hsame
            · simpa [hplace] using ih right hrest
  exact hinputs t.inputs u.inputs (same_iff.mp h).2.2

end Tree

namespace Graph

variable {g g' k : Graph} {f : BlockId → BlockId} {id id' : BlockId}

/-- Two blocks have the same kind and equal fields. -/
def SameLabel (g g' : Graph) (id id' : BlockId) : Prop :=
  ∃ b b', g.block? id = some b ∧ g'.block? id' = some b' ∧ b.kind = b'.kind ∧
    b.fields.same b'.fields = true

/-- A block and what is below it are equal to a block of another diagram and what is below that. -/
inductive SameBelow (g g' : Graph) : BlockId → BlockId → Prop
  | node {id id' : BlockId} (hlabel : g.SameLabel g' id id')
      (hfilled : ∀ socket, (g.child? id socket).isSome = (g'.child? id' socket).isSome)
      (hchild : ∀ socket c c', g.child? id socket = some c → g'.child? id' socket = some c' →
        SameBelow g g' c c') :
      SameBelow g g' id id'

/-- The roots can be paired off so that what is under paired ones is equal. -/
def SameForests (g g' : Graph) : Prop :=
  ∃ paired, List.Forall₂ (g.SameBelow g') g.roots paired ∧ paired.Perm g'.roots

/-- Equality of kinds and fields goes both ways. -/
theorem SameLabel.symm (h : g.SameLabel g' id id') : g'.SameLabel g id' id := by
  obtain ⟨b, b', hb, hb', hkind, hfields⟩ := h
  exact ⟨b', b, hb', hb, hkind.symm, FieldMap.same_symm hfields⟩

/-- Blocks that are compared are there. -/
theorem SameLabel.live (h : g.SameLabel g' id id') : g.Live id ∧ g'.Live id' := by
  obtain ⟨b, b', hb, hb', -⟩ := h
  exact ⟨by rw [Live, hb]; rfl, by rw [Live, hb']; rfl⟩

theorem SameBelow.label (h : g.SameBelow g' id id') : g.SameLabel g' id id' := by
  cases h with
  | node hlabel => exact hlabel

/-- Equality of what is below two blocks goes down along equal sockets. -/
theorem descends_sameBelow : Descends g g' (g.SameBelow g') where
  live h := h.label.live
  child? := by
    rintro id id' ⟨-, hfilled, hchild⟩ socket
    exact rel_iff.mpr ⟨hfilled socket, hchild socket⟩

theorem sameBelow_of_rel (hlabel : g.SameLabel g' id id')
    (hchild : ∀ socket, Option.Rel (g.SameBelow g') (g.child? id socket) (g'.child? id' socket)) :
    g.SameBelow g' id id' :=
  .node hlabel (fun socket => (rel_iff.mp (hchild socket)).1)
    fun socket => (rel_iff.mp (hchild socket)).2

/-! ## Equal forests and corresponding blocks -/

/-- What is below corresponding blocks is equal, when corresponding blocks are. -/
theorem Corresponds.sameBelow (h : g.Corresponds g' f) (hg : g.IsForest)
    (hlabel : ∀ id, g.Live id → g.SameLabel g' id (f id)) (hid : g.Live id) :
    g.SameBelow g' id (f id) := by
  induction id, hid using hg.below_induction with
  | step id hid ih =>
      refine sameBelow_of_rel (hlabel id hid) fun socket => ?_
      rw [h.links id hid socket]
      cases hc : g.child? id socket with
      | none => exact .none
      | some c => exact .some (ih socket c hc)

/-- Going down from paired roots leads to each pair of corresponding blocks. -/
theorem IsForest.sameForests_iff (hg : g.IsForest) (hg' : g'.IsForest) : g.SameForests g' ↔
    ∃ f, g.Corresponds g' f ∧ ∀ id, g.Live id → g.SameLabel g' id (f id) := by
  constructor
  · rintro ⟨paired, hpaired, hperm⟩
    obtain ⟨f, hf, hsame, -⟩ :=
      exists_corresponds hg hg' descends_sameBelow (.refl _) hperm hpaired
    exact ⟨f, hf, fun id hid => (hsame id hid).label⟩
  · rintro ⟨f, hf, hlabel⟩
    refine ⟨g.roots.map f, ?_, hf.perm_roots hg hg'⟩
    rw [List.forall₂_map_right_iff, List.forall₂_same]
    exact fun root hroot => hf.sameBelow hg hlabel (hg.mem_roots.mp hroot).1

/-- Equality of forests goes both ways. -/
theorem SameForests.symm (hg : g.IsForest) (hg' : g'.IsForest) (h : g.SameForests g') :
    g'.SameForests g := by
  obtain ⟨f, hf, hlabel⟩ := (hg.sameForests_iff hg').mp h
  obtain ⟨f', hf', hinv⟩ := hf.symm hg
  refine (hg'.sameForests_iff hg).mpr ⟨f', hf', fun id' hid' => ?_⟩
  obtain ⟨id, hid, rfl⟩ := hf.bijOn.surjOn hid'
  rw [hinv id hid]
  exact (hlabel id hid).symm

/-! ## Equal forests and their trees -/

variable {lo hi lo' hi' : Nat} {t t' : Tree}

theorem Shows.sameLabel_iff (h : g.Shows lo hi t id) (h' : g'.Shows lo' hi' t' id') :
    g.SameLabel g' id id' ↔ t.kind = t'.kind ∧ t.fields.same t'.fields = true := by
  obtain ⟨b, hb, hkind, hfields⟩ := h.block
  obtain ⟨b', hb', hkind', hfields'⟩ := h'.block
  simp [SameLabel, hb, hb', hkind, hkind', hfields, hfields']

theorem Shows.exists_links (h : g.Shows lo hi t id) : ∃ links : Sockets BlockId,
    g.ShowsInputs lo hi t.inputs links.toList ∧
      ∀ socket, g.child? id socket = links.get? socket := by
  cases h with
  | node _ _ hface hinputs =>
      refine ⟨_, hinputs, fun socket => ?_⟩
      rw [child?_eq_face?, hface]
      rfl

/-- The same is plugged in where the same sockets are filled with the same trees. -/
theorem ShowsInputs.sameList {inputs inputs' : List (SocketName × Tree)}
    {links links' : List (SocketName × BlockId)} (h : g.ShowsInputs lo hi inputs links)
    (h' : g'.ShowsInputs lo' hi' inputs' links')
    (hlinks : List.Forall₂ (fun link link' => link.1 = link'.1 ∧ ∀ t t', g.Shows lo hi t link.2 →
      g'.Shows lo' hi' t' link'.2 → t.same t' = true) links links') :
    Tree.sameList inputs inputs' = true := by
  induction hlinks generalizing inputs inputs' with
  | nil =>
      cases h
      cases h'
      rfl
  | cons hlink _ ih =>
      cases h with
      | cons hchild hrest =>
          cases h' with
          | cons hchild' hrest' =>
              exact Tree.sameList_cons.mpr ⟨hlink.1, hlink.2 _ _ hchild hchild', ih hrest hrest'⟩

/-- What is equal looks the same: both trees list what is plugged in by sockets in one order. -/
theorem SameBelow.same (hsame : g.SameBelow g' id id') (h : g.Shows lo hi t id)
    (h' : g'.Shows lo' hi' t' id') : t.same t' = true := by
  induction hsame generalizing t t' with
  | @node id id' hlabel hfilled hchild ih =>
      obtain ⟨hkind, hfields⟩ := (h.sameLabel_iff h').mp hlabel
      obtain ⟨links, hinputs, hlinks⟩ := h.exists_links
      obtain ⟨links', hinputs', hlinks'⟩ := h'.exists_links
      refine Tree.same_iff.mpr ⟨hkind, hfields, hinputs.sameList hinputs' ?_⟩
      refine forall₂_filterMap_of_rel fun socket => ?_
      rw [← hlinks, ← hlinks']
      have hbelow := descends_sameBelow.child? (.node hlabel hfilled hchild)
      rcases rel_cases (hbelow socket) with ⟨hc, hc'⟩ | ⟨c, c', hc, hc', -⟩
      · rw [hc, hc']
        exact .none
      · rw [hc, hc']
        exact .some ⟨rfl, fun _ _ ht ht' => ih socket c c' hc hc' ht ht'⟩

/-- Blocks whose trees are the same are equal with all that is below them. -/
theorem IsForest.sameBelow_of_same (hg : g.IsForest) (h : g.Shows lo hi t id)
    (h' : g'.Shows lo' hi' t' id') (hsame : t.same t' = true) : g.SameBelow g' id id' := by
  have hid := h.live
  induction id, hid using hg.below_induction generalizing t t' id' with
  | step id hid ih =>
      obtain ⟨hkind, hfields, -⟩ := Tree.same_iff.mp hsame
      refine sameBelow_of_rel ((h.sameLabel_iff h').mpr ⟨hkind, hfields⟩) fun socket => ?_
      have hrel := h.child? socket
      have hrel' := h'.child? socket
      rcases rel_cases (Tree.same_child? hsame socket) with ⟨hu, hu'⟩ | ⟨u, u', hu, hu', hsame⟩
      · rw [hu] at hrel
        rw [hu'] at hrel'
        rw [eq_none_of_rel_left hrel, eq_none_of_rel_left hrel']
        exact .none
      · rw [hu] at hrel
        rw [hu'] at hrel'
        obtain ⟨c, hc, hshows⟩ := exists_of_rel_left hrel
        obtain ⟨c', hc', hshows'⟩ := exists_of_rel_left hrel'
        rw [hc, hc']
        exact .some (ih socket c hc hshows hshows' hsame)

/-- Taking for each tree the first one that is the same finds out whether forests are equal. -/
theorem IsForest.isIsomorphic_iff (hg : g.IsForest) (hg' : g'.IsForest) :
    g.isIsomorphic g' = true ↔ g.SameForests g' := by
  rw [isIsomorphic, Tree.sameForest_iff]
  constructor
  · rintro ⟨trees, htrees, hperm⟩
    obtain ⟨paired, hshows', hpaired⟩ := List.perm_comp_forall₂ hperm hg'.forall₂_forest
    have hroots := forall₂_comp hg.forall₂_forest.flip (forall₂_comp htrees hshows')
    refine ⟨paired, hroots.imp ?_, hpaired⟩
    rintro id id' ⟨t, ht, t', hsame, ht'⟩
    exact hg.sameBelow_of_same ht ht' hsame
  · rintro ⟨paired, hpaired, hperm⟩
    obtain ⟨trees, hshows', htrees⟩ := List.perm_comp_forall₂ hperm hg'.forall₂_forest.flip
    have hforest := forall₂_comp hg.forall₂_forest (forall₂_comp hpaired hshows')
    refine ⟨trees, hforest.imp ?_, htrees⟩
    rintro t t' ⟨id, ht, id', hsame, ht'⟩
    exact hsame.same ht ht'

/-! ## Other numbers for the same blocks -/

/-- Corresponding blocks have the same kind and the same fields. Ids, coordinates, recorded findings
and the order of roots may be others. -/
structure Renumbers (g g' : Graph) (f : BlockId → BlockId) : Prop extends Corresponds g g' f where
  kind : ∀ id, g.Live id → g'.kind? (f id) = g.kind? id
  fields : ∀ id, g.Live id → (g'.block? (f id)).map (·.fields) = (g.block? id).map (·.fields)

namespace Renumbers

theorem sameLabel_iff (h : g.Renumbers g' f) (hid : g.Live id) {other : BlockId} :
    g'.SameLabel k (f id) other ↔ g.SameLabel k id other := by
  obtain ⟨b, hb⟩ := Option.isSome_iff_exists.mp hid
  obtain ⟨b', hb'⟩ := Option.isSome_iff_exists.mp (h.bijOn.mapsTo hid)
  have hkind : b'.kind = b.kind := by simpa [kind?, hb, hb'] using h.kind id hid
  have hfields : b'.fields = b.fields := by simpa [hb, hb'] using h.fields id hid
  simp [SameLabel, hb, hb', hkind, hfields]

variable (h : g.Renumbers g' f) (hg : g.IsForest) (hg' : g'.IsForest) (hk : k.IsForest)

include h hg hg' hk

/-- Whether a diagram holds the same forests as another does not depend on its own numbers. -/
theorem sameForests_iff : g'.SameForests k ↔ g.SameForests k := by
  rw [hg'.sameForests_iff hk, hg.sameForests_iff hk]
  constructor
  · rintro ⟨e, he, hlabel⟩
    exact ⟨e ∘ f, h.toCorresponds.trans he, fun id hid =>
      (h.sameLabel_iff hid).mp (hlabel (f id) (h.bijOn.mapsTo hid))⟩
  · rintro ⟨e, he, hlabel⟩
    obtain ⟨f', hf', hinv⟩ := h.toCorresponds.symm hg
    refine ⟨e ∘ f', hf'.trans he, fun id' hid' => ?_⟩
    obtain ⟨id, hid, rfl⟩ := h.bijOn.surjOn hid'
    rw [Function.comp_apply, hinv id hid]
    exact (h.sameLabel_iff hid).mpr (hlabel id hid)

/-- Whether a diagram holds the same forests as another does not depend on the numbers of the other.
-/
theorem sameForests_iff_right : k.SameForests g' ↔ k.SameForests g := by
  constructor
  · intro hsame
    exact ((h.sameForests_iff hg hg' hk).mp (hsame.symm hk hg')).symm hg hk
  · intro hsame
    exact ((h.sameForests_iff hg hg' hk).mpr (hsame.symm hk hg)).symm hg' hk

end Renumbers

end Graph

end TaskDiagram
