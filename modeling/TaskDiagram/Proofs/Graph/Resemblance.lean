import TaskDiagram.Proofs.Graph.Correspondence

/-! # Diagrams of the same structure

Two diagrams whose roots look alike pairwise have the same structure: going down from
paired roots through the same sockets pairs each block of one with one block of the
other. Blocks look alike when they agree in kind, in what is plugged in, and in their
fields up to the form in which numbers are kept.
-/

namespace TaskDiagram

/-- Fields that are read alike: the same ones are there, and hold the same texts and whole
numbers. -/
def FieldMap.Alike (a b : FieldMap) : Prop :=
  ∀ name, (a.get? name).isSome = (b.get? name).isSome ∧
    (a.get? name).bind FieldValue.asText = (b.get? name).bind FieldValue.asText ∧
    (a.get? name).bind FieldValue.asInt = (b.get? name).bind FieldValue.asInt

/-- Fields are read like themselves. -/
theorem FieldMap.Alike.refl (a : FieldMap) : a.Alike a := fun _ => ⟨rfl, rfl, rfl⟩

theorem FieldMap.Alike.symm {a b : FieldMap} (h : a.Alike b) : b.Alike a := fun name =>
  ⟨(h name).1.symm, (h name).2.1.symm, (h name).2.2.symm⟩

theorem FieldMap.Alike.trans {a b c : FieldMap} (h : a.Alike b) (h' : b.Alike c) : a.Alike c :=
  fun name => ⟨(h name).1.trans (h' name).1, (h name).2.1.trans (h' name).2.1,
    (h name).2.2.trans (h' name).2.2⟩

namespace Graph

variable {g g' : Graph}

/-- A block and what is below it look like a tree, however their numbers are kept. -/
inductive Resembles (g : Graph) : Tree → BlockId → Prop
  | node {t : Tree} {id : BlockId} {b : Block} (hblock : g.block? id = some b)
      (hkind : b.kind = t.kind) (hfields : FieldMap.Alike b.fields t.fields)
      (hfilled : ∀ socket, (t.child? socket).isSome = (g.child? id socket).isSome)
      (hchild : ∀ socket u c, t.child? socket = some u → g.child? id socket = some c →
        Resembles g u c) :
      Resembles g t id

/-- Going down on both sides keeps the likeness. -/
theorem Resembles.child? {t : Tree} {id : BlockId} (h : g.Resembles t id) (socket : SocketName) :
    Option.Rel g.Resembles (t.child? socket) (g.child? id socket) := by
  cases h with
  | node _ _ _ hfilled hchild => exact rel_iff.mpr ⟨hfilled socket, hchild socket⟩

/-- A block looks like a tree when its top does and all that is plugged in. -/
theorem resembles_of_rel {t : Tree} {id : BlockId} {b : Block} (hblock : g.block? id = some b)
    (hkind : b.kind = t.kind) (hfields : FieldMap.Alike b.fields t.fields)
    (hchild : ∀ socket, Option.Rel g.Resembles (t.child? socket) (g.child? id socket)) :
    g.Resembles t id :=
  .node hblock hkind hfields (fun socket => (rel_iff.mp (hchild socket)).1)
    fun socket => (rel_iff.mp (hchild socket)).2

/-- The block at the top has the kind of the tree, and fields that are read alike. -/
theorem Resembles.block {t : Tree} {id : BlockId} (h : g.Resembles t id) :
    ∃ b, g.block? id = some b ∧ b.kind = t.kind ∧ b.fields.Alike t.fields := by
  cases h with
  | node hblock hkind hfields => exact ⟨_, hblock, hkind, hfields⟩

theorem Resembles.live {t : Tree} {id : BlockId} (h : g.Resembles t id) : g.Live id := by
  obtain ⟨b, hb, -⟩ := h.block
  rw [Live, hb]
  rfl

/-- What shows a tree resembles it. -/
theorem IsForest.resembles (hg : g.IsForest) {lo hi : Nat} {t : Tree} {id : BlockId}
    (h : g.Shows lo hi t id) : g.Resembles t id := by
  have hlive := h.live
  induction id, hlive using hg.below_induction generalizing t with
  | step id hlive ih =>
      obtain ⟨b, hb, hkind, hfields⟩ := h.block
      apply resembles_of_rel hb hkind (hfields ▸ .refl _)
      intro socket
      rcases rel_cases (h.child? socket) with ⟨hu, hc⟩ | ⟨u, c, hu, hc, hshows⟩
      · rw [hu, hc]
        exact .none
      · rw [hu, hc]
        exact .some (ih socket c hc hshows)

/-- One block for each of the other diagram, with the same kind, links and fields. -/
structure SameStructure (g g' : Graph) (f : BlockId → BlockId) : Prop where
  bijOn : Set.BijOn f {id | g.Live id} {id | g'.Live id}
  kind : ∀ id, g.Live id → g'.kind? (f id) = g.kind? id
  links : ∀ id, g.Live id → ∀ socket, g'.child? (f id) socket = (g.child? id socket).map f
  fields : ∀ id b b', g.block? id = some b → g'.block? (f id) = some b' → b.fields.Alike b'.fields

/-- The same structure is a correspondence of blocks. -/
theorem SameStructure.corresponds {f : BlockId → BlockId} (h : g.SameStructure g' f) :
    g.Corresponds g' f :=
  ⟨h.bijOn, h.links⟩

/-- Diagrams whose roots look alike pairwise have the same structure. -/
theorem exists_sameStructure (hg : g.IsForest) (hg' : g'.IsForest) {roots : List BlockId}
    (hroots : roots.Perm g.roots) {ts : List Tree} (hts : List.Forall₂ g.Resembles ts roots)
    (hts' : List.Forall₂ g'.Resembles ts g'.roots) : ∃ f, g.SameStructure g' f := by
  have hcommon : Descends g g' (Relation.Comp (flip g.Resembles) g'.Resembles) :=
    descends_of_tree Resembles.live Resembles.live Resembles.child? Resembles.child?
  have hpaired := forall₂_comp hts.flip hts'
  obtain ⟨f, hf, hsame, -⟩ := exists_corresponds hg hg' hcommon hroots (.refl _) hpaired
  refine ⟨f, hf.bijOn, fun id hid => ?_, hf.links, fun id b b' hb hb' => ?_⟩
  · obtain ⟨t, ht, ht'⟩ := hsame id hid
    obtain ⟨b, hb, hkind, -⟩ := Resembles.block ht
    obtain ⟨b', hb', hkind', -⟩ := ht'.block
    rw [kind?, kind?, hb, hb', Option.map_some, Option.map_some, hkind, hkind']
  · obtain ⟨t, ht, ht'⟩ := hsame id (by rw [Live, hb]; rfl)
    obtain ⟨_, hshown, -, hfields⟩ := Resembles.block ht
    obtain ⟨_, hshown', -, hfields'⟩ := ht'.block
    obtain rfl := Option.some.inj (hb.symm.trans hshown)
    obtain rfl := Option.some.inj (hb'.symm.trans hshown')
    exact hfields.trans hfields'.symm

end Graph

end TaskDiagram
