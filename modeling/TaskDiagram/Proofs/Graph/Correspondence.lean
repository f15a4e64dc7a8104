import Mathlib.Data.Set.Function
import TaskDiagram.Proofs.Graph.Trees

/-! # Corresponding blocks

The blocks of two diagrams correspond when a bijection of them keeps all links; it keeps the roots
too, then. Such a bijection comes from any relation that pairs the roots and goes over from two
blocks to what is plugged into them: going down from paired roots through the same sockets leads to
each block in exactly one way.
-/

namespace TaskDiagram.Graph

variable {g g' g'' : Graph} {f f' : BlockId → BlockId} {id id' : BlockId}

/-- One block for each of the other diagram, with the same links. -/
structure Corresponds (g g' : Graph) (f : BlockId → BlockId) : Prop where
  bijOn : Set.BijOn f {id | g.Live id} {id | g'.Live id}
  links : ∀ id, g.Live id → ∀ socket, g'.child? (f id) socket = (g.child? id socket).map f

namespace Corresponds

/-- The other way round. -/
theorem symm (h : g.Corresponds g' f) (hg : g.IsForest) :
    ∃ f', g'.Corresponds g f' ∧ ∀ id, g.Live id → f' (f id) = id := by
  have hinv := h.bijOn.invOn_invFunOn
  refine ⟨Function.invFunOn f {id | g.Live id}, ⟨h.bijOn.symm hinv.symm, ?_⟩, hinv.1⟩
  intro id' hid' socket
  obtain ⟨id, hid, rfl⟩ := h.bijOn.surjOn hid'
  rw [h.links id hid socket, hinv.1 hid]
  cases hc : g.child? id socket with
  | none => rfl
  | some child => exact congrArg some (hinv.1 (hg.live_child hc)).symm

theorem trans (h : g.Corresponds g' f) (h' : g'.Corresponds g'' f') :
    g.Corresponds g'' (f' ∘ f) where
  bijOn := h'.bijOn.comp h.bijOn
  links id hid socket := by
    rw [Function.comp_apply, h'.links (f id) (h.bijOn.mapsTo hid) socket, h.links id hid socket,
      Option.map_map]

theorem mem_roots (h : g.Corresponds g' f) (hg : g.IsForest) (hg' : g'.IsForest)
    (hid : g.Live id) : f id ∈ g'.roots ↔ id ∈ g.roots := by
  have hlive' : g'.Live (f id) := h.bijOn.mapsTo hid
  have hparent : g'.parent? (f id) = none ↔ g.parent? id = none := by
    constructor
    · intro hnone
      apply Option.eq_none_iff_forall_ne_some.mpr
      rintro ⟨parent, socket⟩ hp
      have hlink := h.links parent (hg.live_parent hp) socket
      rw [hg.mirror.mp hp, Option.map_some] at hlink
      rw [hg'.mirror.mpr hlink] at hnone
      cases hnone
    · intro hnone
      apply Option.eq_none_iff_forall_ne_some.mpr
      rintro ⟨parent', socket⟩ hp'
      obtain ⟨parent, hparent, rfl⟩ := h.bijOn.surjOn (hg'.live_parent hp')
      have hlink := h.links parent hparent socket
      rw [hg'.mirror.mp hp'] at hlink
      obtain ⟨child, hc, heq⟩ := Option.map_eq_some_iff.mp hlink.symm
      obtain rfl := h.bijOn.injOn (hg.live_child hc) hid heq
      rw [hg.mirror.mpr hc] at hnone
      cases hnone
  rw [hg'.mem_roots, hg.mem_roots, hparent]
  exact ⟨fun h => ⟨hid, h.2⟩, fun h => ⟨hlive', h.2⟩⟩

theorem perm_roots (h : g.Corresponds g' f) (hg : g.IsForest) (hg' : g'.IsForest) :
    (g.roots.map f).Perm g'.roots := by
  have hlive : ∀ root ∈ g.roots, g.Live root := fun root hroot => (hg.mem_roots.mp hroot).1
  have hnodup : (g.roots.map f).Nodup := by
    refine List.Nodup.map_on (fun a ha b hb heq => ?_) hg.roots_nodup
    exact h.bijOn.injOn (hlive a ha) (hlive b hb) heq
  apply (List.perm_ext_iff_of_nodup hnodup hg'.roots_nodup).mpr
  intro id'
  constructor
  · intro hid'
    obtain ⟨id, hid, rfl⟩ := List.mem_map.mp hid'
    exact (h.mem_roots hg hg' (hlive id hid)).mpr hid
  · intro hid'
    obtain ⟨id, hid, rfl⟩ := h.bijOn.surjOn (hg'.mem_roots.mp hid').1
    exact List.mem_map_of_mem ((h.mem_roots hg hg' hid).mp hid')

end Corresponds

/-! ## Relations that go down -/

/-- A relation of blocks that goes over to what is plugged into them. -/
structure Descends (g g' : Graph) (R : BlockId → BlockId → Prop) : Prop where
  live : ∀ {id id'}, R id id' → g.Live id ∧ g'.Live id'
  child? : ∀ {id id'}, R id id' → ∀ socket,
    Option.Rel R (g.child? id socket) (g'.child? id' socket)

theorem Descends.flip {R : BlockId → BlockId → Prop} (h : Descends g g' R) :
    Descends g' g (flip R) where
  live hR := (h.live hR).symm
  child? hR socket := rel_flip (h.child? hR socket)

/-- Looking like one and the same tree goes down when looking like a tree does. -/
theorem descends_of_tree {L L' : Tree → BlockId → Prop}
    (hlive : ∀ {t id}, L t id → g.Live id) (hlive' : ∀ {t id}, L' t id → g'.Live id)
    (hchild : ∀ {t id}, L t id → ∀ socket, Option.Rel L (t.child? socket) (g.child? id socket))
    (hchild' : ∀ {t id}, L' t id → ∀ socket,
      Option.Rel L' (t.child? socket) (g'.child? id socket)) :
    Descends g g' (Relation.Comp (flip L) L') where
  live := fun ⟨_, ht, ht'⟩ => ⟨hlive ht, hlive' ht'⟩
  child? := by
    rintro id id' ⟨t, ht, ht'⟩ socket
    have hrel' := hchild' ht' socket
    rcases rel_cases (hchild ht socket) with ⟨hu, hc⟩ | ⟨u, c, hu, hc, hshown⟩
    · rw [hu] at hrel'
      rw [hc, eq_none_of_rel_left hrel']
      exact .none
    · rw [hu] at hrel'
      obtain ⟨c', hc', hshown'⟩ := exists_of_rel_left hrel'
      rw [hc, hc']
      exact .some ⟨u, hshown, hshown'⟩

/-! ## Going down from paired roots -/

/-- Blocks that are reached from paired roots through the same sockets. -/
inductive Matched (g g' : Graph) (roots roots' : List BlockId) : BlockId → BlockId → Prop
  | root {i : Nat} {id id' : BlockId} (h : roots[i]? = some id) (h' : roots'[i]? = some id') :
      Matched g g' roots roots' id id'
  | child {id id' c c' : BlockId} {socket : SocketName} (h : Matched g g' roots roots' id id')
      (hc : g.child? id socket = some c) (hc' : g'.child? id' socket = some c') :
      Matched g g' roots roots' c c'

namespace Matched

variable {roots roots' : List BlockId} {R : BlockId → BlockId → Prop}

theorem symm (h : Matched g g' roots roots' id id') : Matched g' g roots' roots id' id := by
  induction h with
  | root h h' => exact .root h' h
  | child _ hc hc' ih => exact .child ih hc' hc

/-- No block is reached in two ways, so it is paired once. -/
theorem unique (hg : g.IsForest) (hroots : roots.Perm g.roots)
    (h : Matched g g' roots roots' id id') {other : BlockId}
    (hother : Matched g g' roots roots' id other) : id' = other := by
  have hnodup : roots.Nodup := hroots.nodup_iff.mpr hg.roots_nodup
  have hroot : ∀ {i : Nat} {id : BlockId}, roots[i]? = some id → g.parent? id = none :=
    fun hi => (hg.mem_roots.mp (hroots.mem_iff.mp (List.mem_of_getElem? hi))).2
  induction h generalizing other with
  | root h h' =>
      cases hother with
      | root k k' =>
          have hlt := (List.getElem?_eq_some_iff.mp h).1
          have heq := (List.getElem?_inj hlt hnodup).mp (h.trans k.symm)
          rw [heq, k'] at h'
          exact (Option.some.inj h').symm
      | child _ hc _ =>
          have := hg.mirror.mpr hc
          rw [hroot h] at this
          cases this
  | child _ hc hc' ih =>
      cases hother with
      | root k k' =>
          have := hg.mirror.mpr hc
          rw [hroot k] at this
          cases this
      | child hparent hd hd' =>
          have hsame := (hg.mirror.mpr hc).symm.trans (hg.mirror.mpr hd)
          obtain ⟨rfl, rfl⟩ := Prod.mk.inj (Option.some.inj hsame)
          obtain rfl := ih hparent
          exact Option.some.inj (hc'.symm.trans hd')

/-- A relation that goes down holds of paired blocks when it holds of paired roots. -/
theorem holds (hR : Descends g g' R) (hpaired : List.Forall₂ R roots roots')
    (h : Matched g g' roots roots' id id') : R id id' := by
  induction h with
  | root h h' =>
      obtain ⟨id, hid, hholds⟩ := getElem?_of_forall₂ hpaired h'
      obtain rfl := Option.some.inj (h.symm.trans hid)
      exact hholds
  | child _ hc hc' ih =>
      rename_i socket _
      have hrel := hR.child? ih socket
      rw [hc, hc'] at hrel
      cases hrel with
      | some hholds => exact hholds

/-- What is plugged into paired blocks is paired. -/
theorem child? (hR : Descends g g' R) (hpaired : List.Forall₂ R roots roots')
    (h : Matched g g' roots roots' id id') (socket : SocketName) :
    Option.Rel (Matched g g' roots roots') (g.child? id socket) (g'.child? id' socket) := by
  rcases rel_cases (hR.child? (h.holds hR hpaired) socket) with
    ⟨hc, hc'⟩ | ⟨c, c', hc, hc', -⟩
  · rw [hc, hc']
    exact .none
  · rw [hc, hc']
    exact .some (h.child hc hc')

/-- Every block is reached from a root, and its partner on the same way. -/
theorem exists_of_live (hg : g.IsForest) (hroots : roots.Perm g.roots) (hR : Descends g g' R)
    (hpaired : List.Forall₂ R roots roots') (hid : g.Live id) :
    ∃ id', Matched g g' roots roots' id id' := by
  refine hg.forall_live (P := fun id => ∃ id', Matched g g' roots roots' id id')
    (fun root hmem => ?_) (fun parent socket child => ?_) hid
  · obtain ⟨i, hi⟩ := List.getElem?_of_mem (hroots.mem_iff.mpr hmem)
    have hlt : i < roots'.length := by
      rw [← hpaired.length_eq]
      exact (List.getElem?_eq_some_iff.mp hi).1
    exact ⟨_, .root hi (List.getElem?_eq_getElem hlt)⟩
  · rintro ⟨parent', hmatched⟩ hc
    have hrel := hmatched.child? hR hpaired socket
    rw [hc] at hrel
    obtain ⟨c', -, hchild⟩ := exists_of_rel_left hrel
    exact ⟨c', hchild⟩

end Matched

/-- When a relation that goes down holds of the roots pairwise, each block corresponds to its only
partner, and the relation holds of the two. -/
theorem exists_corresponds {R : BlockId → BlockId → Prop} (hg : g.IsForest) (hg' : g'.IsForest)
    (hR : Descends g g' R) {roots roots' : List BlockId} (hroots : roots.Perm g.roots)
    (hroots' : roots'.Perm g'.roots) (hpaired : List.Forall₂ R roots roots') :
    ∃ f, g.Corresponds g' f ∧ (∀ id, g.Live id → R id (f id)) ∧ roots' = roots.map f := by
  have hpartner : ∀ id, ∃ id', g.Live id → Matched g g' roots roots' id id' := by
    intro id
    by_cases hid : g.Live id
    · obtain ⟨id', h⟩ := Matched.exists_of_live hg hroots hR hpaired hid
      exact ⟨id', fun _ => h⟩
    · exact ⟨id, fun h => absurd h hid⟩
  choose f hf using hpartner
  have hlive : ∀ {id id'}, Matched g g' roots roots' id id' → g.Live id ∧ g'.Live id' :=
    fun h => hR.live (h.holds hR hpaired)
  -- Partners are unique both ways, which makes the choice a bijection.
  have hunique : ∀ {id id'}, Matched g g' roots roots' id id' → f id = id' :=
    fun h => Matched.unique hg hroots (hf _ (hlive h).1) h
  refine ⟨f, ⟨⟨fun id hid => (hlive (hf id hid)).2, ?_, ?_⟩, ?_⟩,
    fun id hid => (hf id hid).holds hR hpaired, ?_⟩
  · intro id hid other hother heq
    exact Matched.unique hg' hroots' (hf id hid).symm (heq ▸ (hf other hother).symm)
  · intro id' hid'
    obtain ⟨id, h⟩ := Matched.exists_of_live hg' hroots' hR.flip hpaired.flip hid'
    exact ⟨id, (hlive h.symm).1, hunique h.symm⟩
  · intro id hid socket
    rcases rel_cases ((hf id hid).child? hR hpaired socket) with
      ⟨hc, hc'⟩ | ⟨c, c', hc, hc', hchild⟩
    · rw [hc, hc', Option.map_none]
    · rw [hc, hc', Option.map_some, hunique hchild]
  · apply List.ext_getElem (by simpa using hpaired.length_eq.symm)
    intro i hi hi'
    have hi' : i < roots.length := by simpa using hi'
    rw [List.getElem_map, hunique (.root (List.getElem?_eq_getElem hi')
      (List.getElem?_eq_getElem hi))]

end TaskDiagram.Graph
